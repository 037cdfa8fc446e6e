import HyperC.Guest.Kmain
import HyperC.Guest.Tidy

/-!
# `syscall_mallware` and `sysenter_mallware`

The malware of `kmain.c` is entered in place of a handler and calls the handler itself.  But neither
handler returns: `__syscall_handler` jumps to where `rcx` points, which is the `ret` of `__syscall`,
and that `ret` finds the return address into the malware on the stack.

* `Mallware`          where the compiler and the linker put it;
* `Mallware.syscallMallwareCode`, `Mallware.sysenterMallwareCode`   the two functions;
* `Mallware.syscall`, `Mallware.sysenter`   the gates, which enter what the MSRs say;
* `Mallware.syscall_comes_back`   `__syscall` returns like any call, malware or not, if the malware
                      has not lost `rcx` before it calls the handler;
* `Mallware.sysenter_goes_on`     `__sysenter` goes on at its caller's, some frames further down.
-/

namespace HyperC
open Code

/-- the malware as it is compiled and linked -/
structure Mallware extends Kernel where
  /-- the addresses behind the calls of `__syscall_handler` and of `__sysenter_handler` -/
  behindSyscallHandler : BitVec 64
  behindSysenterHandler : BitVec 64
  syscallLocals : ℕ
  sysenterLocals : ℕ
  /-- what `syscall_mallware` computes before its call -/
  arguments : Machine → Machine
  entries_nodup : [gates.sysenterHandlerAt, gates.syscallHandlerAt, syscallMallware,
    sysenterMallware].Nodup
  fits : syscallLocals + sysenterLocals + gates.sysenterLocals + gates.dispatchLocals + gates.callDepth
    + 96 ≤ stackSize

namespace Mallware
variable (k : Mallware)

/-- the code in front of the call of `__syscall_handler` -/
def before : Gates := { k.gates with compiled := k.arguments }

/-- the instruction behind `syscall` in `__syscall` is a `ret` -/
def retBehindSyscall : Code Guest Unit := do
  let rip ← onMachine (getReg .rip)
  if rip = k.gates.behindSyscall then step (popQword .rip) else leave id

def syscallMallwareCode : Code Guest Unit := do
  let number ← onMachine (gets edi)
  step (prologue k.syscallLocals)
  step (k.before.clobber k.syscallLocals)
  onMachine (setReg .rdi (number.setWidth 64))
  callFunction k.behindSyscallHandler (do
    k.gates.syscallHandler
    k.retBehindSyscall)
  onMachine (logInfo (mallwareText .syscall) [])
  step (k.gates.clobber k.syscallLocals)
  step epilogue

def sysenterMallwareCode : Code Guest Unit := do
  let number ← onMachine (gets edi)
  step (prologue k.sysenterLocals)
  step (k.gates.clobber k.sysenterLocals)
  onMachine (logInfo (mallwareText .sysenter) [])
  onMachine (setReg .rdi (number.setWidth 64))
  step (pushQword k.behindSysenterHandler)
  k.gates.sysenterHandler

def syscall : Code Guest Unit := do
  onMachine (stepSyscall k.gates.behindSyscall)
  let rip ← onMachine (getReg .rip)
  if rip = k.syscallMallware then k.syscallMallwareCode
  else if rip = k.sysenterMallware then k.sysenterMallwareCode
  else do
    k.gates.enter
    k.retBehindSyscall

def sysenter : Code Guest Unit := do
  step fun s => { s with mem := s.mem.store64 k.gates.sysenterRsp (s.cpu.regs .rsp) }
  onMachine stepSysenter
  let rip ← onMachine (getReg .rip)
  if rip = k.sysenterMallware then k.sysenterMallwareCode
  else if rip = k.syscallMallware then k.syscallMallwareCode
  else k.gates.enter

end Mallware

/-! ## the entry -/

/-- the MSRs of the gates, with the addresses that the two instructions enter -/
structure EntersAt (img : Gates) (syscallAt sysenterAt : BitVec 64) (s : Machine) : Prop where
  selector : (s.cpu.msr msrIa32SysenterCs).setWidth 16 &&& 0xFFFC#16 ≠ 0#16
  eip : s.cpu.msr msrIa32SysenterEip = sysenterAt
  esp : s.cpu.msr msrIa32SysenterEsp = BitVec.ofNat 64 img.stackEnd
  lstar : s.cpu.msr msrIa32Lstar = syscallAt
  efer : s.cpu.msr msrIa32Efer &&& eferSyscallEnable ≠ 0#64

theorem EntersAt.congr {img : Gates} {e e' : BitVec 64} {s t : Machine} (h : EntersAt img e e' s)
    (hmsr : t.cpu.msr = s.cpu.msr) : EntersAt img e e' t := by
  obtain ⟨h1, h2, h3, h4, h5⟩ := h
  rw [← hmsr] at h1 h2 h3 h4 h5
  exact ⟨h1, h2, h3, h4, h5⟩

def Mallware.syscallEntry (k : Mallware) (infected : Bool) : BitVec 64 :=
  if infected then k.syscallMallware else k.gates.syscallHandlerAt

def Mallware.sysenterEntry (k : Mallware) (infected : Bool) : BitVec 64 :=
  if infected then k.sysenterMallware else k.gates.sysenterHandlerAt

/-- the malware is in place, or the handlers are -/
def Mallware.Installed (k : Mallware) (infected : Bool) (s : Machine) : Prop :=
  EntersAt k.gates (k.syscallEntry infected) (k.sysenterEntry infected) s

section
variable {img : Gates} {e e' : BitVec 64} {s : Machine} {r : Reg}

theorem setRip_reg (v : BitVec 64) (h : r ≠ .rip) : (setRip v s).cpu.regs r = s.cpu.regs r := by
  simp [setRip, h]

theorem setRip_rip (v : BitVec 64) : (setRip v s).cpu.regs .rip = v := by simp [setRip]

theorem run_stepSyscall_at (h : EntersAt img e e' s) :
    (stepSyscall img.behindSyscall).run s = .ret () (setRip e (afterSyscall img s)) := by
  unfold stepSyscall
  rw [bind_of_ret (run_gets _ _), if_neg h.efer, run_modify]
  simp only [h.lstar, afterSyscall, setRip, Function.update_idem]

theorem run_stepSysenter_at (h : EntersAt img e e' s) :
    stepSysenter.run { s with mem := s.mem.store64 img.sysenterRsp (s.cpu.regs .rsp) }
      = .ret () (setRip e' (afterSysenter img s)) := by
  unfold stepSysenter
  rw [bind_of_ret (run_gets _ _), if_neg h.selector, run_modify]
  simp only [h.eip, h.esp, afterSysenter, setRip, Function.update_idem]

end

section
variable {k : Mallware} {s : Machine} {rs : List ℕ} {is : List (BitVec 64)}

/-- what `__syscall` runs behind its `syscall` -/
theorem run_syscall {infected : Bool} (h : k.Installed infected s) :
    k.syscall.run ⟨s, rs, is⟩ = (if infected then k.syscallMallwareCode else do
        k.gates.syscallHandler
        k.retBehindSyscall : Code Guest Unit).run
      ⟨setRip (k.syscallEntry infected) (afterSyscall k.gates s), rs, is⟩ := by
  have hne := k.entries_nodup
  simp only [List.nodup_cons, List.mem_cons, List.not_mem_nil, or_false, not_or] at hne
  obtain ⟨⟨h1, -, -⟩, ⟨h2, h3⟩, -⟩ := hne
  have hstep : (onMachine (stepSyscall k.gates.behindSyscall)).run ⟨s, rs, is⟩
      = .ret () ⟨setRip (k.syscallEntry infected) (afterSyscall k.gates s), rs, is⟩ :=
    run_onMachine (run_stepSyscall_at h)
  unfold Mallware.syscall
  rw [bind_of_ret hstep, bind_of_ret (run_getReg .rip)]
  simp only [setRip_rip]
  cases infected with
  | true =>
    have hentry : k.syscallEntry true = k.syscallMallware := rfl
    rw [hentry, if_pos rfl, if_pos rfl]
  | false =>
    have hentry : k.syscallEntry false = k.gates.syscallHandlerAt := rfl
    have henter : k.gates.enter.run ⟨setRip k.gates.syscallHandlerAt (afterSyscall k.gates s), rs, is⟩
        = k.gates.syscallHandler.run
          ⟨setRip k.gates.syscallHandlerAt (afterSyscall k.gates s), rs, is⟩ := by
      unfold Gates.enter
      rw [bind_of_ret (run_getReg .rip)]
      simp only [setRip_rip]
      rw [if_neg (Ne.symm h1), if_pos trivial]
    rw [hentry, if_neg h2, if_neg h3, if_neg Bool.false_ne_true, run_bind, henter, run_bind]

/-- what `__sysenter` runs behind its `sysenter` -/
theorem run_sysenter_at {infected : Bool} (h : k.Installed infected s) :
    k.sysenter.run ⟨s, rs, is⟩
      = (if infected then k.sysenterMallwareCode else k.gates.sysenterHandler : Code Guest Unit).run
        ⟨setRip (k.sysenterEntry infected) (afterSysenter k.gates s), rs, is⟩ := by
  have hne := k.entries_nodup
  simp only [List.nodup_cons, List.mem_cons, List.not_mem_nil, or_false, not_or] at hne
  obtain ⟨⟨-, h1, h2⟩, -, -⟩ := hne
  have hmov : (step fun s => { s with mem := s.mem.store64 k.gates.sysenterRsp (s.cpu.regs .rsp) }).run
      ⟨s, rs, is⟩ = .ret () ⟨{ s with mem := s.mem.store64 k.gates.sysenterRsp (s.cpu.regs .rsp) },
        rs, is⟩ := run_step _
  have hstep : (onMachine stepSysenter).run
      ⟨{ s with mem := s.mem.store64 k.gates.sysenterRsp (s.cpu.regs .rsp) }, rs, is⟩
      = .ret () ⟨setRip (k.sysenterEntry infected) (afterSysenter k.gates s), rs, is⟩ :=
    run_onMachine (run_stepSysenter_at h)
  unfold Mallware.sysenter
  rw [bind_of_ret hmov, bind_of_ret hstep, bind_of_ret (run_getReg .rip)]
  simp only [setRip_rip]
  cases infected with
  | true =>
    have hentry : k.sysenterEntry true = k.sysenterMallware := rfl
    rw [hentry, if_pos rfl, if_pos rfl]
  | false =>
    have hentry : k.sysenterEntry false = k.gates.sysenterHandlerAt := rfl
    rw [hentry, if_neg h2, if_neg h1, if_neg Bool.false_ne_true]
    unfold Gates.enter
    rw [bind_of_ret (run_getReg .rip)]
    simp only [setRip_rip]
    rw [if_pos trivial]

end

/-! ## `__syscall` -/

/-- the stack that `__syscall` uses, with the malware -/
def Mallware.depth (k : Mallware) : ℕ :=
  56 + k.syscallLocals + k.gates.dispatchLocals + k.gates.callDepth

/-- the call of `__syscall_handler` finds the address behind `syscall` in `rcx` -/
def Mallware.KeepsRcx (k : Mallware) : Prop :=
  ∀ s, (k.arguments s).cpu.regs .rcx = s.cpu.regs .rcx

/-- what the malware adds to the log in a system call -/
def infection (infected : Bool) (gate : Gate) : List LogLine :=
  if infected then [mallwareLine gate] else []

theorem infections_logged {s : Machine} (h : s.minLevel.toNat ≤ LogLevel.info.toNat) (gate : Gate) :
    infections { s with log := logged s .info (mallwareText gate) [] }
      = infections s ++ [mallwareLine gate] := by
  show List.filter _ (logged s .info (mallwareText gate) []) = List.filter _ s.log ++ _
  rw [logged, if_neg (Nat.not_lt.mpr h), List.filter_append]
  cases gate with
  | syscall => rfl
  | sysenter => rfl

section
variable {k : Mallware} {own : ℕ → Prop} {infected : Bool} {s : Machine}

theorem leaves_clobber (own : ℕ → Prop) (img : Gates) (locals : ℕ) (s : Machine) :
    Leaves own ((s.cpu.regs .rsp).toNat - img.callDepth) ((s.cpu.regs .rsp).toNat + locals) [] s
      (img.clobber locals s) :=
  ⟨fun x _ hx => if_neg (by omega), rfl, rfl, (List.append_nil _).symm⟩

theorem leaves_logged (own : ℕ → Prop) (lo hi : ℕ) (gate : Gate)
    (h : s.minLevel.toNat ≤ LogLevel.info.toNat) : Leaves own lo hi [mallwareLine gate] s
      { s with log := logged s .info (mallwareText gate) [] } :=
  ⟨fun _ _ _ => rfl, rfl, rfl, infections_logged h gate⟩

/-- **`__syscall_handler` returns like any call** to what called it, be it `__syscall` or the malware,
through the `ret` of `__syscall` -/
theorem handler_returns (rs : List ℕ) (is : List (BitVec 64))
    (hrcx : s.cpu.regs .rcx = k.gates.behindSyscall)
    (hroom : 40 + k.gates.dispatchLocals + k.gates.callDepth ≤ (s.cpu.regs .rsp).toNat)
    (hend : (s.cpu.regs .rsp).toNat + 8 ≤ 2 ^ 64)
    (htable : ssdtAddress + 8 * ssdtSize + 40 + k.gates.dispatchLocals + k.gates.callDepth
      ≤ (s.cpu.regs .rsp).toNat ∨ (s.cpu.regs .rsp).toNat ≤ ssdtAddress)
    (hown : ∀ x, (s.cpu.regs .rsp).toNat ≤ x + 40 + k.gates.dispatchLocals + k.gates.callDepth →
      x < (s.cpu.regs .rsp).toNat + 8 → ¬ own x)
    (htidy : ∀ h ∈ dispatched s.mem (edi s), TidyHandler k.gates own h) :
    ∃ g, (do
        k.gates.syscallHandler
        k.retBehindSyscall : Code Guest Unit).run ⟨s, rs, is⟩ = .ret () g ∧
      g.invoked = is ++ dispatched s.mem (edi s) ∧ Returned s g.machine ∧
      Leaves own ((s.cpu.regs .rsp).toNat - (40 + k.gates.dispatchLocals + k.gates.callDepth))
        (s.cpu.regs .rsp).toNat [] s g.machine := by
  obtain ⟨g, hrun, hinv, hgoes, hleaves⟩ := syscallHandler_comes_back rs is hroom hend htable
    (fun x h1 h2 => hown x h1 (by omega)) htidy
  have hword : g.machine.mem.load64 (s.cpu.regs .rsp).toNat = s.mem.load64 (s.cpu.regs .rsp).toNat :=
    (hleaves.sameOn fun x ha hb => ⟨hown x (by omega) hb, .inr ha⟩).load64 le_rfl le_rfl
  have hrip : g.machine.cpu.regs .rip = k.gates.behindSyscall := hgoes.rip.trans hrcx
  refine ⟨{ g with machine := popQword .rip g.machine }, ?_, hinv, ⟨?_, ?_, fun r hr hne => ?_⟩,
    hleaves.trans (Leaves.of_eq rfl rfl rfl rfl)⟩
  · unfold Mallware.retBehindSyscall
    rw [bind_of_ret hrun, bind_of_ret (run_getReg .rip), if_pos hrip, run_step]
  · rw [← hword, ← hgoes.rsp]
    simp [popQword]
  · rw [← hgoes.rsp]
    simp [popQword]
  · have hne' : r ≠ .rip := ne_of_calleeSaved hr rfl
    rw [← hgoes.saved r hr hne]
    simp [popQword, hne, hne']

/-- the call of `__syscall_handler` by the malware -/
theorem handler_called {n : BitVec 32} (rs : List ℕ) (is : List (BitVec 64))
    (hrcx : s.cpu.regs .rcx = k.gates.behindSyscall)
    (hroom : 48 + k.gates.dispatchLocals + k.gates.callDepth ≤ (s.cpu.regs .rsp).toNat)
    (htable : ssdtAddress + 8 * ssdtSize + 48 + k.gates.dispatchLocals + k.gates.callDepth
      ≤ (s.cpu.regs .rsp).toNat ∨ (s.cpu.regs .rsp).toNat ≤ ssdtAddress)
    (hown : ∀ x, (s.cpu.regs .rsp).toNat ≤ x + 48 + k.gates.dispatchLocals + k.gates.callDepth →
      x < (s.cpu.regs .rsp).toNat → ¬ own x)
    (htidy : ∀ h ∈ dispatched s.mem n, TidyHandler k.gates own h) :
    ∃ g, (callFunction k.behindSyscallHandler (do
        k.gates.syscallHandler
        k.retBehindSyscall)).run
        ⟨withRegs s (Function.update s.cpu.regs .rdi (n.setWidth 64)), rs, is⟩ = .ret () g ∧
      g.invoked = is ++ dispatched s.mem n ∧
      Behind own (48 + k.gates.dispatchLocals + k.gates.callDepth) [] s g.machine := by
  have hpush := toNat_sub_of_le (x := s.cpu.regs .rsp) (n := 8) (by omega)
  have hlt := (s.cpu.regs .rsp).isLt
  -- the machine when `__syscall_handler` is entered
  obtain ⟨t, ht⟩ : ∃ t, t = callWith k.behindSyscallHandler (n.setWidth 64) s := ⟨_, rfl⟩
  have hsp : t.cpu.regs .rsp = s.cpu.regs .rsp - 8#64 := by rw [ht, callWith_rsp]
  have hcx : t.cpu.regs .rcx = k.gates.behindSyscall := by
    rw [ht, callWith_reg (by decide) (by decide)]
    exact hrcx
  have hedi : edi t = n := by rw [ht, callWith_edi]
  have hd : dispatched t.mem n = dispatched s.mem n := by
    rw [ht]
    exact dispatched_congr (callWith_sameOn (by omega) (by omega))
  obtain ⟨g, hrun, hinv, hret, hleaves⟩ := @handler_returns k own t rs is hcx (by rw [hsp]; omega)
    (by rw [hsp]; omega) (by rw [hsp]; omega)
    (fun x h1 h2 => hown x (by rw [hsp] at h1; omega) (by rw [hsp] at h2; omega))
    (by rw [hedi, hd]; exact htidy)
  rw [hedi, hd] at hinv
  rw [ht] at hrun hret hleaves
  obtain ⟨hcall, hrsp, hsaved, hrest⟩ := callFunction_returns (by omega) hrun hret hleaves
  exact ⟨g, hcall, hinv, hrsp, hsaved, hrest.mono (by omega) le_rfl⟩

/-- **`syscall_mallware` returns like any call** -/
theorem mallware_returns (rs : List ℕ) (is : List (BitVec 64)) (hkeeps : k.KeepsRcx)
    (hlevel : s.minLevel.toNat ≤ LogLevel.info.toNat) (hrcx : s.cpu.regs .rcx = k.gates.behindSyscall)
    (hroom : k.depth ≤ (s.cpu.regs .rsp).toNat)
    (htable : ssdtAddress + 8 * ssdtSize + k.depth ≤ (s.cpu.regs .rsp).toNat ∨
      (s.cpu.regs .rsp).toNat ≤ ssdtAddress)
    (hown : ∀ x, (s.cpu.regs .rsp).toNat - k.depth ≤ x → x < (s.cpu.regs .rsp).toNat + 8 → ¬ own x)
    (htidy : ∀ h ∈ dispatched s.mem (edi s), TidyHandler k.gates own h) :
    ∃ g, k.syscallMallwareCode.run ⟨s, rs, is⟩ = .ret () g ∧
      g.invoked = is ++ dispatched s.mem (edi s) ∧ Returned s g.machine ∧
      Leaves own ((s.cpu.regs .rsp).toNat - k.depth) (s.cpu.regs .rsp).toNat [mallwareLine .syscall]
        s g.machine := by
  unfold Mallware.depth at hroom htable hown ⊢
  have hroom' : 8 + k.syscallLocals + k.gates.callDepth ≤ (s.cpu.regs .rsp).toNat := by omega
  have he : Entered k.before k.syscallLocals s
      (k.before.clobber k.syscallLocals (prologue k.syscallLocals s)) := entered k.before hroom'
  have hentry : ∀ own, Leaves own ((s.cpu.regs .rsp).toNat - (8 + k.syscallLocals + k.gates.callDepth))
      (s.cpu.regs .rsp).toNat [] s (k.before.clobber k.syscallLocals (prologue k.syscallLocals s)) :=
    fun own => leaves_entered own k.before hroom'
  have hcx : (k.before.clobber k.syscallLocals (prologue k.syscallLocals s)).cpu.regs .rcx
      = k.gates.behindSyscall := by
    refine (hkeeps (prologue k.syscallLocals s)).trans ?_
    rw [← hrcx]
    simp [prologue, setRegs, withRegs, pushQword]
  unfold Mallware.syscallMallwareCode
  rw [bind_of_ret (run_onMachine (run_gets _ _)), bind_of_ret (run_step _), bind_of_ret (run_step _)]
  simp only
  generalize k.before.clobber k.syscallLocals (prologue k.syscallLocals s) = t at he hentry hcx ⊢
  have hrsp := he.rsp
  have hrbp := he.rbp
  have hd : dispatched t.mem (edi s) = dispatched s.mem (edi s) :=
    dispatched_congr ((hentry fun _ => False).sameOn fun x _ _ => ⟨id, by omega⟩)
  obtain ⟨g, hcall, hinv, hbehind⟩ := @handler_called k own t (edi s) rs is hcx (by omega) (by omega)
    (fun x h1 h2 => hown x (by omega) (by omega)) (by rw [hd]; exact htidy)
  have hleaves := hbehind.leaves
  -- behind the call: the line, and the frame
  obtain ⟨u, hu⟩ : ∃ u, u = k.gates.clobber k.syscallLocals
      { g.machine with log := logged g.machine .info (mallwareText .syscall) [] } := ⟨_, rfl⟩
  have hsaved : ∀ r, calleeSaved r → r ≠ .rsp → u.cpu.regs r = t.cpu.regs r := by
    intro r hr hne
    rw [hu, ← hbehind.saved r hr hne]
    exact if_pos (Or.inl hr)
  have hlog : Leaves own ((s.cpu.regs .rsp).toNat - (56 + k.syscallLocals + k.gates.dispatchLocals +
      k.gates.callDepth)) ((s.cpu.regs .rsp).toNat - 8) [mallwareLine .syscall] g.machine u := by
    have hclobber := leaves_clobber own k.gates k.syscallLocals
      { g.machine with log := logged g.machine .info (mallwareText .syscall) [] }
    rw [← hu] at hclobber
    simp only [hbehind.rsp] at hclobber
    refine (leaves_logged own _ _ .syscall ?_).trans (hclobber.mono (by omega) (by omega))
    rw [hleaves.minLevel, (hentry own).minLevel]
    exact hlevel
  have hframe : t.mem.SameOn u.mem (t.cpu.regs .rbp).toNat ((t.cpu.regs .rbp).toNat + 16) := by
    intro x h1 h2
    have hx : ¬ own x := hown x (by omega) (by omega)
    rw [hlog.mem x hx (by omega), hleaves.mem x hx (by omega)]
  have hall : Leaves own ((s.cpu.regs .rsp).toNat - (56 + k.syscallLocals + k.gates.dispatchLocals +
      k.gates.callDepth)) (s.cpu.regs .rsp).toNat [mallwareLine .syscall] s u :=
    (((hentry own).mono (by omega) le_rfl).trans (hleaves.mono (by omega) (by omega))).trans
      (hlog.mono le_rfl (by omega))
  rw [bind_of_ret (run_setArgument _ _), bind_of_ret hcall, bind_of_ret (run_onMachine (run_logInfo _ _ _)),
    bind_of_ret (run_step _)]
  simp only
  rw [← hu]
  exact ⟨_, run_step _, by rw [hinv, hd], he.returns hsaved hframe,
    hall.trans (Leaves.of_eq rfl rfl rfl rfl)⟩

/-- **`__syscall` returns like any call**, with the malware in place or without -/
theorem syscall_comes_back (rs : List ℕ) (is : List (BitVec 64)) (h : k.Installed infected s)
    (hkeeps : infected = true → k.KeepsRcx) (hlevel : s.minLevel.toNat ≤ LogLevel.info.toNat)
    (hroom : k.depth ≤ (s.cpu.regs .rsp).toNat) (hend : (s.cpu.regs .rsp).toNat + 8 ≤ 2 ^ 64)
    (htable : ssdtAddress + 8 * ssdtSize + k.depth ≤ (s.cpu.regs .rsp).toNat ∨
      (s.cpu.regs .rsp).toNat ≤ ssdtAddress)
    (hown : ∀ x, (s.cpu.regs .rsp).toNat - k.depth ≤ x → x < (s.cpu.regs .rsp).toNat + 8 → ¬ own x)
    (htidy : ∀ h ∈ dispatched s.mem (edi s), TidyHandler k.gates own h) :
    ∃ g, k.syscall.run ⟨s, rs, is⟩ = .ret () g ∧ g.invoked = is ++ dispatched s.mem (edi s) ∧
      Returned s g.machine ∧
      Leaves own ((s.cpu.regs .rsp).toNat - k.depth) (s.cpu.regs .rsp).toNat
        (infection infected .syscall) s g.machine := by
  obtain ⟨t, ht⟩ : ∃ t, t = setRip (k.syscallEntry infected) (afterSyscall k.gates s) := ⟨_, rfl⟩
  have hreg : ∀ r, r ≠ .rcx → r ≠ .r11 → r ≠ .rip → t.cpu.regs r = s.cpu.regs r := by
    intro r h1 h2 h3
    rw [ht, setRip_reg _ h3, afterSyscall_reg h1 h2 h3]
  have hsp : t.cpu.regs .rsp = s.cpu.regs .rsp := hreg _ (by decide) (by decide) (by decide)
  have hedi : edi t = edi s := by rw [edi, edi, hreg _ (by decide) (by decide) (by decide)]
  have hmem : t.mem = s.mem := by rw [ht]; rfl
  have hlevel' : t.minLevel = s.minLevel := by rw [ht]; rfl
  have hrcx : t.cpu.regs .rcx = k.gates.behindSyscall := by
    rw [ht, setRip_reg _ (by decide)]
    simp [afterSyscall]
  have hentry : Leaves own ((s.cpu.regs .rsp).toNat - k.depth) (s.cpu.regs .rsp).toNat [] s t := by
    rw [ht]
    exact Leaves.of_eq rfl rfl rfl rfl
  have hback : ∃ g, (if infected then k.syscallMallwareCode else do
        k.gates.syscallHandler
        k.retBehindSyscall : Code Guest Unit).run ⟨t, rs, is⟩ = .ret () g ∧
      g.invoked = is ++ dispatched t.mem (edi t) ∧ Returned t g.machine ∧
      Leaves own ((s.cpu.regs .rsp).toNat - k.depth) (s.cpu.regs .rsp).toNat
        (infection infected .syscall) t g.machine := by
    rw [← hsp] at hroom hend htable hown ⊢
    rw [← hedi, ← hmem] at htidy
    cases infected with
    | true =>
      rw [if_pos rfl]
      exact mallware_returns rs is (hkeeps rfl) (by rw [hlevel']; exact hlevel) hrcx hroom htable hown htidy
    | false =>
      unfold Mallware.depth at hroom htable hown ⊢
      obtain ⟨g, hrun, hinv, hret, hleaves⟩ := handler_returns rs is hrcx (by omega) hend (by omega)
        (fun x h1 h2 => hown x (by omega) h2) htidy
      rw [if_neg Bool.false_ne_true]
      exact ⟨g, hrun, hinv, hret, hleaves.mono (by omega) le_rfl⟩
  obtain ⟨g, hrun, hinv, hret, hleaves⟩ := hback
  rw [hmem, hedi] at hinv
  refine ⟨g, ?_, hinv, ⟨?_, ?_, fun r hr hne => ?_⟩, hentry.trans hleaves⟩
  · rw [run_syscall h, ← ht]
    exact hrun
  · rw [hret.rip, hmem, hsp]
  · rw [hret.rsp, hsp]
  · have h1 : r ≠ .rcx := ne_of_calleeSaved hr rfl
    have h2 : r ≠ .r11 := ne_of_calleeSaved hr rfl
    have h3 : r ≠ .rip := ne_of_calleeSaved hr rfl
    rw [hret.saved r hr hne, hreg r h1 h2 h3]

end

/-! ## `__sysenter` -/

/-- how far below the end of `kernel_stack` `__sysenter` leaves its caller -/
def Mallware.frames (k : Mallware) (infected : Bool) : ℕ :=
  k.gates.sysenterLocals + 16 + if infected then k.sysenterLocals + 16 else 0

/-- the bytes that `__sysenter` writes besides those of the handler -/
def Mallware.Cell (k : Mallware) (x : ℕ) : Prop := k.gates.sysenterRsp ≤ x ∧ x < k.gates.sysenterRsp + 8

/-- where `__sysenter`, called in `s`, goes on in `t`: below the end of `kernel_stack`, at the return
address of the call unless its own frames have overwritten that -/
structure GoesOnBelow (k : Mallware) (infected : Bool) (own : ℕ → Prop) (s t : Machine) : Prop where
  rsp : (t.cpu.regs .rsp).toNat + k.frames infected = k.gates.stackEnd
  saved : ∀ r, calleeSaved r → r ≠ .rsp → r ≠ .rbp → t.cpu.regs r = s.cpu.regs r
  rip : (∀ x, (s.cpu.regs .rsp).toNat ≤ x → x < (s.cpu.regs .rsp).toNat + 8 → ¬ own x ∧ ¬ k.Cell x ∧
    (x < k.gates.kernelStack ∨ k.gates.stackEnd ≤ x)) →
    t.cpu.regs .rip = s.mem.load64 (s.cpu.regs .rsp).toNat
  ripFrame : (s.cpu.regs .rsp).toNat + k.frames infected + 8 = k.gates.stackEnd →
    k.gates.kernelStack ≤ (t.cpu.regs .rip).toNat ∧ (t.cpu.regs .rip).toNat < k.gates.stackEnd

section
variable {k : Mallware} {own : ℕ → Prop} {infected : Bool} {s : Machine}

/-- what `omega` has to know of the stack and of the cell -/
theorem Mallware.bounds (k : Mallware) (infected : Bool) :
    k.gates.stackEnd = k.gates.kernelStack + 0x1000 ∧
    k.gates.stackEnd < 2 ^ 64 ∧ k.frames infected + k.syscallLocals + k.gates.dispatchLocals +
      k.gates.callDepth + 64 ≤ 0x1000 ∧
    (k.gates.sysenterRsp + 8 ≤ k.gates.kernelStack ∨ k.gates.stackEnd ≤ k.gates.sysenterRsp) ∧
    (k.gates.sysenterRsp + 8 ≤ ssdtAddress ∨ ssdtAddress + 8 * ssdtSize + 8 ≤ k.gates.sysenterRsp) ∧
    (k.gates.stackEnd ≤ ssdtAddress ∨ ssdtAddress + 8 * ssdtSize + 8 ≤ k.gates.kernelStack) := by
  have hfits := k.fits
  have hsize : stackSize = 0x1000 := rfl
  refine ⟨rfl, k.gates.stack_lt, ?_, k.gates.cell_stack, k.gates.cell_table, k.gates.stack_table⟩
  unfold Mallware.frames
  split <;> omega

/-- from the entry of the gate to that of `__sysenter_handler` -/
theorem sysenter_entered (rs : List ℕ) (is : List (BitVec 64))
    (hlevel : s.minLevel.toNat ≤ LogLevel.info.toNat) (hrsp : (s.cpu.regs .rsp).toNat = k.gates.stackEnd) :
    ∃ t, (if infected then k.sysenterMallwareCode else k.gates.sysenterHandler : Code Guest Unit).run
        ⟨s, rs, is⟩ = k.gates.sysenterHandler.run ⟨t, rs, is⟩ ∧
      (t.cpu.regs .rsp).toNat + k.frames infected = k.gates.stackEnd + k.gates.sysenterLocals + 16 ∧
      (∀ r, calleeSaved r → r ≠ .rsp → r ≠ .rbp → t.cpu.regs r = s.cpu.regs r) ∧ edi t = edi s ∧
      ∀ own, Leaves own k.gates.kernelStack k.gates.stackEnd (infection infected .sysenter) s t := by
  obtain ⟨hend, hlt, hfits, -⟩ := k.bounds infected
  unfold Mallware.frames at hfits ⊢
  cases infected with
  | false =>
    refine ⟨s, by rw [if_neg Bool.false_ne_true], ?_, fun _ _ _ _ => rfl, rfl, fun own => Leaves.refl⟩
    rw [if_neg Bool.false_ne_true]
    omega
  | true =>
    simp only [if_true] at hfits ⊢
    have hroom : 8 + k.sysenterLocals + k.gates.callDepth ≤ (s.cpu.regs .rsp).toNat := by omega
    have he : Entered k.gates k.sysenterLocals s
        (k.gates.clobber k.sysenterLocals (prologue k.sysenterLocals s)) := entered k.gates hroom
    have hentry : ∀ own, Leaves own ((s.cpu.regs .rsp).toNat - (8 + k.sysenterLocals + k.gates.callDepth))
        (s.cpu.regs .rsp).toNat [] s (k.gates.clobber k.sysenterLocals (prologue k.sysenterLocals s)) :=
      fun own => leaves_entered own k.gates hroom
    unfold Mallware.sysenterMallwareCode
    rw [bind_of_ret (run_onMachine (run_gets _ _)), bind_of_ret (run_step _), bind_of_ret (run_step _)]
    simp only
    generalize k.gates.clobber k.sysenterLocals (prologue k.sysenterLocals s) = t at he hentry ⊢
    have hsp := he.rsp
    have hpush := toNat_sub_of_le (x := t.cpu.regs .rsp) (n := 8) (by omega)
    -- the machine behind the log
    obtain ⟨u, hu⟩ : ∃ u, u = { t with log := logged t .info (mallwareText .sysenter) [] } := ⟨_, rfl⟩
    have hline : ∀ own, Leaves own k.gates.kernelStack k.gates.stackEnd [mallwareLine .sysenter] t u := by
      intro own
      rw [hu]
      refine leaves_logged own _ _ .sysenter ?_
      rw [(hentry own).minLevel]
      exact hlevel
    have hcpu : u.cpu = t.cpu := by rw [hu]
    rw [bind_of_ret (run_onMachine (run_logInfo _ _ _))]
    simp only
    rw [← hu, bind_of_ret (run_setArgument _ _), bind_of_ret (run_step _)]
    refine ⟨callWith k.behindSysenterHandler ((edi s).setWidth 64) u, rfl, ?_, fun r hr h1 h2 => ?_,
      callWith_edi _, fun own => ?_⟩
    · rw [callWith_rsp, hcpu]
      omega
    · rw [callWith_reg h1 (ne_of_calleeSaved hr rfl), hcpu]
      exact he.saved r hr h1 h2
    · have hcall := leaves_callWith (s := u) own k.behindSysenterHandler ((edi s).setWidth 64)
        (by rw [hcpu]; omega)
      exact (((hentry own).mono (by omega) (by omega)).trans (hline own)).trans
        (hcall.mono (by rw [hcpu]; omega) (by rw [hcpu]; omega))

/-- **`__sysenter` goes on at its caller's**, with the malware in place or without, on `kernel_stack` -/
theorem sysenter_goes_on (rs : List ℕ) (is : List (BitVec 64)) (h : k.Installed infected s)
    (hlevel : s.minLevel.toNat ≤ LogLevel.info.toNat)
    (hown : ∀ x, own x → ¬ k.Cell x ∧ (x < k.gates.kernelStack ∨ k.gates.stackEnd ≤ x))
    (htidy : ∀ h ∈ dispatched s.mem (edi s), TidyHandler k.gates own h) :
    ∃ g, k.sysenter.run ⟨s, rs, is⟩ = .ret () g ∧ g.invoked = is ++ dispatched s.mem (edi s) ∧
      GoesOnBelow k infected own s g.machine ∧
      Leaves (fun x => own x ∨ k.Cell x) k.gates.kernelStack k.gates.stackEnd
        (infection infected .sysenter) s g.machine := by
  obtain ⟨hend, hlt, hfits, hcell, hcelltable, hstacktable⟩ := k.bounds infected
  obtain ⟨t, ht⟩ : ∃ t, t = setRip (k.sysenterEntry infected) (afterSysenter k.gates s) := ⟨_, rfl⟩
  have hsp : (t.cpu.regs .rsp).toNat = k.gates.stackEnd := by
    rw [ht, setRip_reg _ (by decide), afterSysenter_rsp]
  have hreg : ∀ r, r ≠ .rsp → r ≠ .rip → t.cpu.regs r = s.cpu.regs r := by
    intro r h1 h2
    rw [ht, setRip_reg _ h2, afterSysenter_reg h1 h2]
  have hmem : t.mem = s.mem.store64 k.gates.sysenterRsp (s.cpu.regs .rsp) := by rw [ht]; rfl
  have hedi : edi t = edi s := by rw [edi, edi, hreg _ (by decide) (by decide)]
  have hentry : Leaves (fun x => own x ∨ k.Cell x) k.gates.kernelStack k.gates.stackEnd [] s t := by
    rw [ht]
    refine ⟨fun x hx _ => Mem.store64_outside _ _ _ _ ?_, rfl, rfl, (List.append_nil _).symm⟩
    have hx' : ¬ k.Cell x := fun hc => hx (.inr hc)
    rw [Mallware.Cell] at hx'
    omega
  obtain ⟨u, hrun, hrsp, hsaved, hedi', hleaves⟩ := @sysenter_entered k infected t rs is
    (by rw [hentry.minLevel]; exact hlevel) hsp
  -- the cell holds the caller's stack pointer, and the table is where it was
  have hcellout : ∀ x, k.gates.sysenterRsp ≤ x → x < k.gates.sysenterRsp + 8 →
      ¬ own x ∧ (x < k.gates.kernelStack ∨ k.gates.stackEnd ≤ x) :=
    fun x h1 h2 => ⟨fun ho => (hown x ho).1 ⟨h1, h2⟩, by omega⟩
  have hload : u.mem.load64 k.gates.sysenterRsp = s.cpu.regs .rsp := by
    rw [((hleaves own).sameOn hcellout).load64 le_rfl le_rfl, hmem]
    exact Mem.load64_store64_same _ _ _
  have hd : dispatched u.mem (edi s) = dispatched s.mem (edi s) := by
    have hstore : s.mem.SameOn t.mem ssdtAddress (ssdtAddress + 8 * ssdtSize + 8) := by
      rw [hmem]
      exact Mem.SameOn.store64 _ _ (by omega)
    exact dispatched_congr (hstore.trans
      ((hleaves fun _ => False).sameOn fun x _ _ => ⟨id, by omega⟩))
  unfold Mallware.frames at hrsp hfits
  obtain ⟨g, hback, hinv, hgoes, hrest⟩ := @sysenterHandler_goes_on k.gates own u rs is (by omega)
    (by omega) (fun x h1 h2 => ⟨(hcellout x h1 h2).1, by have := (hcellout x h1 h2).2; omega⟩)
    (fun x h1 h2 ho => by have := (hown x ho).2; omega)
    (by rw [hedi', hedi, hd]; exact htidy)
  rw [hedi', hedi, hd] at hinv
  have hall : Leaves (fun x => own x ∨ k.Cell x) k.gates.kernelStack k.gates.stackEnd
      (infection infected .sysenter) s g.machine := by
    have hgates : Leaves own k.gates.kernelStack k.gates.stackEnd (infection infected .sysenter ++ [])
        t g.machine := (hleaves own).trans (hrest.mono (by omega) (by omega))
    rw [List.append_nil] at hgates
    exact hentry.trans ⟨fun x hx hout => hgates.mem x (fun ho => hx (.inl ho)) hout, hgates.msr,
      hgates.minLevel, hgates.logs⟩
  refine ⟨g, ?_, hinv, ⟨?_, fun r hr h1 h2 => ?_, fun hout => ?_, fun hframe => ?_⟩, hall⟩
  · rw [run_sysenter_at h, ← ht, hrun]
    exact hback
  · have hgsp := hgoes.rsp
    unfold Mallware.frames
    omega
  · have hrip : r ≠ .rip := ne_of_calleeSaved hr rfl
    rw [hgoes.saved r hr h1 h2, hsaved r hr h1 h2, hreg r h1 hrip]
  · rw [hgoes.rip _ hload fun x h1 h2 => ⟨(hout x h1 h2).1, by have := (hout x h1 h2).2.2; omega⟩]
    have hword : s.mem.SameOn u.mem (s.cpu.regs .rsp).toNat ((s.cpu.regs .rsp).toNat + 8) := by
      intro x h1 h2
      have hx := hout x h1 h2
      rw [(hleaves own).mem x hx.1 hx.2.2, hentry.mem x (fun ho => ho.elim hx.1 hx.2.1) hx.2.2]
    exact hword.load64 le_rfl le_rfl
  · unfold Mallware.frames at hframe
    have hgrip := hgoes.ripFrame (by rw [hload]; omega)
    omega

end

end HyperC
