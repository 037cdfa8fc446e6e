import HyperC.Guest.Slots
import HyperC.Guest.Stack

/-!
# The two system-call gates

`__syscall` and `__sysenter` enter the kernel with the instruction of that name, through the MSRs
that `init_syscalls` writes.  The assembly is taken instruction by instruction.  The C functions are
taken as the build compiles them, without optimisation: with a frame pointer, and with anything in
the scratch registers, in their locals and below them.

* `Gates`                  the addresses of the gates, the frames of their C functions, the handlers;
* `initSyscalls`           the MSRs;
* `stepSyscall`, `stepSysenter`, `popf`   the instructions;
* `Gates.syscall`, `Gates.sysenter`   the gates, with `dispatch_handler` in between;
* `HandlersObey`           what the handlers promise where a gate enters them;
* `dispatch_returns`       and what `dispatch_handler` therefore does;
* `syscall_returns`        the gate `__syscall` returns like any call.

A fault hands control over, for good.
-/

namespace HyperC
open Code

def stackSize : ℕ := 0x1000
def eferSyscallEnable : BitVec 64 := 0x1#64

/-- the gates in memory: what the linker places where, how much of the stack the compiled functions
use, what they leave behind, and the code of the handlers from their entry to their return -/
structure Gates where
  kernelStack : ℕ
  sysenterRsp : ℕ
  sysenterHandlerAt : BitVec 64
  syscallHandlerAt : BitVec 64
  /-- the addresses behind `syscall`, behind the two calls of `dispatch_handler`, behind `ret()` and
  behind `handler()` -/
  behindSyscall : BitVec 64
  behindDispatch : BitVec 64
  behindDispatchC : BitVec 64
  behindRet : BitVec 64
  behindHandler : BitVec 64
  sysenterLocals : ℕ
  dispatchLocals : ℕ
  callDepth : ℕ
  compiled : Machine → Machine
  handler : BitVec 64 → Machine → Machine
  handlers_ne : sysenterHandlerAt ≠ syscallHandlerAt
  stack_lt : kernelStack + stackSize < 2 ^ 64
  stack_fits : sysenterLocals + dispatchLocals + callDepth + 64 ≤ stackSize
  stack_table : kernelStack + stackSize ≤ ssdtAddress ∨ ssdtAddress + 8 * ssdtSize + 8 ≤ kernelStack
  cell_stack : sysenterRsp + 8 ≤ kernelStack ∨ kernelStack + stackSize ≤ sysenterRsp
  cell_table : sysenterRsp + 8 ≤ ssdtAddress ∨ ssdtAddress + 8 * ssdtSize + 8 ≤ sysenterRsp

/-- the first byte above `kernel_stack` -/
def Gates.stackEnd (img : Gates) : ℕ := img.kernelStack + stackSize

/-- what `omega` has to know of `kernel_stack` -/
theorem Gates.stack_bounds (img : Gates) : stackSize = 0x1000 ∧
    img.stackEnd = img.kernelStack + stackSize ∧ img.stackEnd < 2 ^ 64 ∧
    img.sysenterLocals + img.dispatchLocals + img.callDepth + 64 ≤ stackSize :=
  ⟨rfl, rfl, img.stack_lt, img.stack_fits⟩

def initSyscalls (img : Gates) : Host Unit := do
  writeMsr msrIa32SysenterCs ((← readCs).setWidth 64)
  writeMsr msrIa32SysenterEip img.sysenterHandlerAt
  writeMsr msrIa32SysenterEsp (BitVec.ofNat 64 img.stackEnd)
  writeMsr msrIa32Lstar img.syscallHandlerAt
  writeMsr msrIa32Star ((← readCs).setWidth 64 <<< 32)
  writeMsr msrIa32Efer ((← readMsr msrIa32Efer) ||| eferSyscallEnable)

/-! ## instructions -/

def setRegs (f : Regs → Regs) (s : Machine) : Machine := withRegs s (f s.cpu.regs)

/-- `syscall`, with the next instruction at `next`; `#UD` unless it is enabled -/
def stepSyscall (next : BitVec 64) : Host Unit := do
  let efer ← gets fun s => s.cpu.msr msrIa32Efer
  if efer &&& eferSyscallEnable = 0#64 then leave id
  else modify fun s =>
    let star := (s.cpu.msr msrIa32Star).extractLsb' 32 16
    { s with cpu := { s.cpu with
      regs := Function.update (Function.update (Function.update s.cpu.regs .rcx next)
        .r11 s.cpu.rflags) .rip (s.cpu.msr msrIa32Lstar)
      rflags := s.cpu.rflags &&& ~~~ s.cpu.msr msrIa32Fmask
      cs := star &&& 0xFFFC#16
      ss := star + 8#16 } }

/-- `sysenter`; `#GP` if `IA32_SYSENTER_CS` has no selector.  `RFLAGS.VM` and `RFLAGS.IF` go -/
def stepSysenter : Host Unit := do
  let cs ← gets fun s => (s.cpu.msr msrIa32SysenterCs).setWidth 16 &&& 0xFFFC#16
  if cs = 0#16 then leave id
  else modify fun s => { s with cpu := { s.cpu with
    regs := Function.update (Function.update s.cpu.regs .rsp (s.cpu.msr msrIa32SysenterEsp))
      .rip (s.cpu.msr msrIa32SysenterEip)
    rflags := s.cpu.rflags &&& ~~~ 0x20200#64
    cs := cs
    ss := cs + 8#16 } }

/-- the flags that `popf` takes from the stack; of the others, `RF` is cleared -/
def popfMask : BitVec 64 := 0x247FD5#64

def popf (s : Machine) : Machine :=
  let rsp := s.cpu.regs .rsp
  let v := s.mem.load64 rsp.toNat
  { s with cpu := { s.cpu with
    regs := Function.update s.cpu.regs .rsp (rsp + 8#64)
    rflags := (v &&& popfMask) ||| (s.cpu.rflags &&& ~~~ (popfMask ||| 0x10000#64)) } }

/-- `push rbp; mov rbp, rsp; sub rsp, locals` -/
def prologue (locals : ℕ) (s : Machine) : Machine :=
  setRegs (fun r => Function.update (Function.update r .rbp (r .rsp)) .rsp
    (r .rsp - BitVec.ofNat 64 locals)) (pushQword (s.cpu.regs .rbp) s)

def epilogue (s : Machine) : Machine :=
  popQword .rip (popQword .rbp (setRegs (fun r => Function.update r .rsp (r .rbp)) s))

/-- what compiled code leaves behind: anything in the scratch registers and in the flags, in the
locals, and in the bytes below them, down to the depth of its calls of the log -/
def Gates.clobber (img : Gates) (locals : ℕ) (s : Machine) : Machine :=
  let rsp := (s.cpu.regs .rsp).toNat
  { s with
    mem := fun x => if rsp - img.callDepth ≤ x ∧ x < rsp + locals then (img.compiled s).mem x else s.mem x
    cpu := { s.cpu with
      regs := fun r => if calleeSaved r ∨ r = .rip then s.cpu.regs r else (img.compiled s).cpu.regs r
      rflags := (img.compiled s).cpu.rflags } }

/-! ## the gates -/

/-- a step of the machine that does not fault -/
def step (f : Machine → Machine) : Code Guest Unit := onMachine (modify f)

/-- the call of a function `f`; who returns elsewhere does not come back -/
def callFunction (next : BitVec 64) (f : Code Guest Unit) : Code Guest Unit := do
  step (pushQword next)
  f
  let rip ← onMachine (getReg .rip)
  if rip = next then pure () else leave id

def readEntry (number : BitVec 32) : Code Guest (BitVec 64) := do
  modify fun g => { g with reads := g.reads ++ [Ssdt.entries ssdtAddress number.toNat] }
  onMachine (loadQword (Ssdt.entries ssdtAddress number.toNat))

def edi (s : Machine) : BitVec 32 := (s.cpu.regs .rdi).setWidth 32

namespace Gates
variable (img : Gates)

def runHandler (handler : BitVec 64) : Code Guest Unit := do
  invoke handler
  step (img.handler handler)

def dispatchBody (number : BitVec 32) : Code Guest Unit := do
  if number > BitVec.ofNat 32 ssdtSize then
    onMachine (logError "out of bounds syscall number: %d" [.int (number.setWidth 64)])
  else
    let entry ← readEntry number
    if entry = 0#64 then
      onMachine (logError "syscall %d doesn't have a handler" [.int (number.setWidth 64)])
    else
      let handler ← readEntry number
      callFunction img.behindHandler (img.runHandler handler)

def dispatchHandler : Code Guest Unit := do
  let number ← onMachine (gets edi)
  step (prologue img.dispatchLocals)
  step (img.clobber img.dispatchLocals)
  img.dispatchBody number
  step epilogue

/-- `__sysenter_handler`; its last call does not return here -/
def sysenterHandler : Code Guest Unit := do
  let number ← onMachine (gets edi)
  step (prologue img.sysenterLocals)
  step (img.clobber img.sysenterLocals)
  onMachine (setReg .rdi (number.setWidth 64))
  callFunction img.behindDispatchC img.dispatchHandler
  let p ← onMachine (loadQword img.sysenterRsp)
  let rip ← onMachine (loadQword p.toNat)
  step (pushQword img.behindRet)
  step (setRip rip)

def syscallHandler : Code Guest Unit := do
  step fun s => pushQword (s.cpu.regs .rcx) s
  step fun s => pushQword (s.cpu.regs .r11) s
  callFunction img.behindDispatch img.dispatchHandler
  step popf
  step (popQword .rcx)
  step fun s => setRip (s.cpu.regs .rcx) s

def enter : Code Guest Unit := do
  let rip ← onMachine (getReg .rip)
  if rip = img.sysenterHandlerAt then img.sysenterHandler
  else if rip = img.syscallHandlerAt then img.syscallHandler
  else leave id

def sysenter : Code Guest Unit := do
  step fun s => { s with mem := s.mem.store64 img.sysenterRsp (s.cpu.regs .rsp) }
  onMachine stepSysenter
  img.enter

def syscall : Code Guest Unit := do
  onMachine (stepSyscall img.behindSyscall)
  img.enter
  let rip ← onMachine (getReg .rip)
  if rip = img.behindSyscall then step (popQword .rip) else leave id

end Gates

/-! ## the calling convention -/

/-- from the entry state `s` of a function, `s'` is where any call of it comes back -/
structure Returned (s s' : Machine) : Prop where
  rip : s'.cpu.regs .rip = s.mem.load64 (s.cpu.regs .rsp).toNat
  rsp : s'.cpu.regs .rsp = s.cpu.regs .rsp + 8#64
  saved : ∀ r, calleeSaved r → r ≠ .rsp → s'.cpu.regs r = s.cpu.regs r

/-- the run of a function from `s` to `s'` obeys the calling convention: it returns, and leaves alone
the bytes `theirs`, which its callers have in memory -/
structure ObeysConvention (theirs : ℕ → Prop) (s s' : Machine) : Prop where
  returned : Returned s s'
  callers : ∀ x, theirs x → s'.mem x = s.mem x

/-- the handlers that the dispatch of `n` invokes -/
def dispatched (m : Mem) (n : BitVec 32) : List (BitVec 64) :=
  if n > BitVec.ofNat 32 ssdtSize then [] else if tableEntry m n = 0#64 then [] else [tableEntry m n]

/-- in `t` a handler is entered, `d` bytes below `top`, and since `s` nothing was written but the stack
there and `sysenter_rsp` -/
structure Gates.HandlerEntered (img : Gates) (top d : ℕ) (s t : Machine) : Prop where
  rsp : (t.cpu.regs .rsp).toNat + d = top
  mem : ∀ x, x + d + img.callDepth < top ∨ top ≤ x →
    x < img.sysenterRsp ∨ img.sysenterRsp + 8 ≤ x → t.mem x = s.mem x

/-- the frames above a handler that `__syscall`, called in `s`, enters -/
def Gates.syscallFrames (img : Gates) (s : Machine) (x : ℕ) : Prop :=
  (s.cpu.regs .rsp).toNat ≤ x + 40 + img.dispatchLocals ∧ x < (s.cpu.regs .rsp).toNat + 8

/-- the frames above a handler that `__sysenter` enters, and `sysenter_rsp`, which only the entry of the
gate writes -/
def Gates.sysenterFrames (img : Gates) (x : ℕ) : Prop :=
  (img.stackEnd ≤ x + 32 + img.sysenterLocals + img.dispatchLocals ∧ x < img.stackEnd) ∨
    (img.sysenterRsp ≤ x ∧ x < img.sysenterRsp + 8)

/-- the handlers obey the calling convention where the gates, called in `s`, enter them -/
structure HandlersObey (img : Gates) (s : Machine) : Prop where
  syscall : ∀ h ∈ dispatched s.mem (edi s), ∀ t,
    img.HandlerEntered (s.cpu.regs .rsp).toNat (40 + img.dispatchLocals) s t →
    ObeysConvention (img.syscallFrames s) t (img.handler h t)
  sysenter : ∀ h ∈ dispatched s.mem (edi s), ∀ t,
    img.HandlerEntered img.stackEnd (32 + img.sysenterLocals + img.dispatchLocals) s t →
    ObeysConvention img.sysenterFrames t (img.handler h t)

/-- both gates, called in the state `s`, invoke the handler of the number and return like a call -/
def GatesReturn (img : Gates) (s : Machine) : Prop :=
  ∃ g g', img.syscall.run (Guest.init s) = .ret () g ∧ img.sysenter.run (Guest.init s) = .ret () g' ∧
    g.invoked = dispatched s.mem (edi s) ∧ g'.invoked = dispatched s.mem (edi s) ∧
    Returned s g.machine ∧ Returned s g'.machine

/-- the caller stands on `kernel_stack`, where the frames of the gate go -/
structure OnGateFrame (img : Gates) (s : Machine) : Prop where
  rsp : (s.cpu.regs .rsp).toNat + img.sysenterLocals + 24 = img.stackEnd
  rbp : (s.cpu.regs .rbp).toNat + 8 = img.stackEnd
  rip : (s.mem.load64 (s.cpu.regs .rsp).toNat).toNat + 8 = img.stackEnd

/-! ## a push, and the entry and exit of a function -/

section
variable {s : Machine} {g g' : Guest} {r : Reg}

theorem run_step (f : Machine → Machine) :
    (step f).run g = .ret () { g with machine := f g.machine } := rfl

theorem pushQword_reg (v : BitVec 64) (hr : r ≠ .rsp) :
    (pushQword v s).cpu.regs r = s.cpu.regs r := by
  simp [pushQword, hr]

theorem pushQword_rsp (v : BitVec 64) : (pushQword v s).cpu.regs .rsp = s.cpu.regs .rsp - 8#64 := by
  simp [pushQword]

theorem toNat_sub_of_le {x : BitVec 64} {n : ℕ} (h : n ≤ x.toNat) :
    (x - BitVec.ofNat 64 n).toNat + n = x.toNat := by
  have hx := x.isLt
  rw [BitVec.toNat_sub, BitVec.toNat_ofNat]
  omega

theorem pushQword_sameOn (v : BitVec 64) (h : 8 ≤ (s.cpu.regs .rsp).toNat) {a b : ℕ}
    (hab : b + 8 ≤ (s.cpu.regs .rsp).toNat ∨ (s.cpu.regs .rsp).toNat ≤ a) :
    s.mem.SameOn (pushQword v s).mem a b := by
  have hsub := toNat_sub_of_le h
  exact Mem.SameOn.store64 _ _ (by omega)

theorem pushQword_top (v : BitVec 64) :
    (pushQword v s).mem.load64 ((pushQword v s).cpu.regs .rsp).toNat = v := by
  rw [pushQword_rsp]
  exact Mem.load64_store64_same _ _ _

theorem run_callFunction {f : Code Guest Unit} {next : BitVec 64}
    (h : f.run { g with machine := pushQword next g.machine } = .ret () g')
    (hr : Returned (pushQword next g.machine) g'.machine) :
    (callFunction next f).run g = .ret () g' := by
  have hrip : g'.machine.cpu.regs .rip = next := by rw [hr.rip, pushQword_top]
  unfold callFunction
  rw [bind_of_ret (run_step _), bind_of_ret h, bind_of_ret (run_getReg .rip), if_pos hrip]
  rfl

theorem returned_saved {t : Machine} {next : BitVec 64} (hr : Returned (pushQword next s) t)
    (hs : calleeSaved r) (hne : r ≠ .rsp) : t.cpu.regs r = s.cpu.regs r := by
  rw [hr.saved r hs hne, pushQword_reg _ hne]

/-- the body of a function starts in `t`, when the function is entered in `s` -/
structure Entered (img : Gates) (locals : ℕ) (s t : Machine) : Prop where
  rsp : (t.cpu.regs .rsp).toNat + 8 + locals = (s.cpu.regs .rsp).toNat
  rbp : (t.cpu.regs .rbp).toNat + 8 = (s.cpu.regs .rsp).toNat
  savedRbp : t.mem.load64 (t.cpu.regs .rbp).toNat = s.cpu.regs .rbp
  saved : ∀ r, calleeSaved r → r ≠ .rsp → r ≠ .rbp → t.cpu.regs r = s.cpu.regs r
  mem : ∀ a b, b + 8 + locals + img.callDepth ≤ (s.cpu.regs .rsp).toNat ∨
    (s.cpu.regs .rsp).toNat ≤ a → s.mem.SameOn t.mem a b
  msr : t.cpu.msr = s.cpu.msr

theorem entered (img : Gates) {locals : ℕ}
    (h : 8 + locals + img.callDepth ≤ (s.cpu.regs .rsp).toNat) :
    Entered img locals s (img.clobber locals (prologue locals s)) := by
  have hpush := toNat_sub_of_le (x := s.cpu.regs .rsp) (n := 8) (by omega)
  have hlocals := toNat_sub_of_le (x := s.cpu.regs .rsp - 8#64) (n := locals) (by omega)
  have hrbp : (prologue locals s).cpu.regs .rbp = s.cpu.regs .rsp - 8#64 := by
    simp [prologue, setRegs, withRegs, pushQword_rsp]
  have hrsp : (prologue locals s).cpu.regs .rsp
      = s.cpu.regs .rsp - 8#64 - BitVec.ofNat 64 locals := by
    simp [prologue, setRegs, withRegs, pushQword_rsp]
  have hreg : ∀ r, calleeSaved r → (img.clobber locals (prologue locals s)).cpu.regs r
      = (prologue locals s).cpu.regs r := fun r hr => if_pos (Or.inl hr)
  have hmem : ∀ a b, b + 8 + locals + img.callDepth ≤ (s.cpu.regs .rsp).toNat ∨
      (s.cpu.regs .rsp).toNat ≤ a + 8 →
      (prologue locals s).mem.SameOn (img.clobber locals (prologue locals s)).mem a b := by
    intro a b hab x ha hb
    refine if_neg ?_
    rw [hrsp]
    omega
  refine ⟨?_, ?_, ?_, fun r hr h1 h2 => ?_, fun a b hab => ?_, rfl⟩
  · rw [hreg _ rfl, hrsp]
    omega
  · rw [hreg _ rfl, hrbp]
    omega
  · rw [hreg _ rfl, hrbp, (hmem _ ((s.cpu.regs .rsp).toNat) (Or.inr (by omega))).load64 le_rfl
      (by omega)]
    exact Mem.load64_store64_same _ _ _
  · rw [hreg r hr]
    simp [prologue, setRegs, withRegs, h1, h2, pushQword_reg]
  · exact (pushQword_sameOn _ (by omega) (by omega)).trans (hmem a b (by omega))

theorem epilogue_reg (hr : r ≠ .rsp) (hr' : r ≠ .rbp) (hr'' : r ≠ .rip) :
    (epilogue s).cpu.regs r = s.cpu.regs r := by
  simp [epilogue, popQword, setRegs, withRegs, hr, hr', hr'']

theorem epilogue_rbp : (epilogue s).cpu.regs .rbp = s.mem.load64 (s.cpu.regs .rbp).toNat := by
  simp [epilogue, popQword, setRegs, withRegs]

theorem epilogue_rsp : (epilogue s).cpu.regs .rsp = s.cpu.regs .rbp + 8#64 + 8#64 := by
  simp [epilogue, popQword, setRegs, withRegs]

theorem epilogue_rip :
    (epilogue s).cpu.regs .rip = s.mem.load64 (s.cpu.regs .rbp + 8#64).toNat := by
  simp [epilogue, popQword, setRegs, withRegs]

/-- a function returns if its body keeps the saved registers and the two words of its frame -/
theorem Entered.returns {img : Gates} {locals : ℕ} {t u : Machine} (he : Entered img locals s t)
    (hsaved : ∀ r, calleeSaved r → r ≠ .rsp → u.cpu.regs r = t.cpu.regs r)
    (hframe : t.mem.SameOn u.mem (t.cpu.regs .rbp).toNat ((t.cpu.regs .rbp).toNat + 16)) :
    Returned s (epilogue u) := by
  have hrbp := he.rbp
  have hbp : u.cpu.regs .rbp = t.cpu.regs .rbp := hsaved .rbp rfl (by decide)
  have hslot : u.mem.load64 (t.cpu.regs .rbp).toNat = s.cpu.regs .rbp := by
    rw [hframe.load64 le_rfl (by omega), he.savedRbp]
  have hret : (t.cpu.regs .rbp + 8#64).toNat = (s.cpu.regs .rsp).toNat := by
    have hlt := (s.cpu.regs .rsp).isLt
    rw [BitVec.toNat_add, BitVec.toNat_ofNat]
    omega
  have hword : s.mem.SameOn u.mem (s.cpu.regs .rsp).toNat ((s.cpu.regs .rsp).toNat + 8) :=
    (he.mem _ _ (Or.inr le_rfl)).trans (hframe.mono (by omega) (by omega))
  refine ⟨?_, ?_, fun r hr hne => ?_⟩
  · rw [epilogue_rip, hbp, hret]
    exact hword.load64 le_rfl le_rfl
  · rw [epilogue_rsp, hbp, BitVec.eq_of_toNat_eq hret]
  · by_cases hr' : r = .rbp
    · rw [hr', epilogue_rbp, hbp, hslot]
    · rw [epilogue_reg hne hr' (ne_of_calleeSaved hr rfl), hsaved r hr hne, he.saved r hr hne hr']

end

/-! ## `dispatch_handler` -/

section
variable {img : Gates} {theirs : ℕ → Prop} {g : Guest} {s : Machine} {n : BitVec 32}

/-- the body of `dispatch_handler`, from its machine `s` to `t`, leaves alone the bytes `theirs`, but for
the word below its locals -/
structure BodyKeeps (theirs : ℕ → Prop) (s t : Machine) : Prop where
  saved : ∀ r, calleeSaved r → r ≠ .rsp → t.cpu.regs r = s.cpu.regs r
  mem : ∀ x, theirs x → x + 8 < (s.cpu.regs .rsp).toNat ∨ (s.cpu.regs .rsp).toNat ≤ x →
    t.mem x = s.mem x

theorem run_readEntry (n : BitVec 32) : (readEntry n).run g
    = .ret (tableEntry g.machine.mem n)
      { g with reads := g.reads ++ [Ssdt.entries ssdtAddress n.toNat] } := rfl

/-- **the body invokes the handler of the number** -/
theorem dispatchBody_run (h8 : 8 ≤ (g.machine.cpu.regs .rsp).toNat)
    (hconv : ∀ h ∈ dispatched g.machine.mem n, ObeysConvention theirs
      (pushQword img.behindHandler g.machine) (img.handler h (pushQword img.behindHandler g.machine))) :
    ∃ g', (img.dispatchBody n).run g = .ret () g' ∧
      g'.invoked = g.invoked ++ dispatched g.machine.mem n ∧
      BodyKeeps theirs g.machine g'.machine := by
  unfold Gates.dispatchBody
  by_cases hbound : n > BitVec.ofNat 32 ssdtSize
  · rw [if_pos hbound, dispatched, if_pos hbound, List.append_nil]
    exact ⟨_, run_onMachine (run_logError _ _ _), rfl, fun _ _ _ => rfl, fun _ _ _ => rfl⟩
  rw [if_neg hbound, bind_of_ret (run_readEntry n)]
  by_cases hnull : tableEntry g.machine.mem n = 0#64
  · rw [if_pos hnull, dispatched, if_neg hbound, if_pos hnull, List.append_nil]
    exact ⟨_, run_onMachine (run_logError _ _ _), rfl, fun _ _ _ => rfl, fun _ _ _ => rfl⟩
  have hd : dispatched g.machine.mem n = [tableEntry g.machine.mem n] := by
    rw [dispatched, if_neg hbound, if_neg hnull]
  rw [hd] at hconv ⊢
  have hobey := hconv _ (List.mem_singleton.mpr rfl)
  rw [if_neg hnull, bind_of_ret (run_readEntry n)]
  refine ⟨_, run_callFunction rfl hobey.returned, rfl, fun r hr hne =>
    returned_saved hobey.returned hr hne, fun x hx hout => (hobey.callers x hx).trans ?_⟩
  exact pushQword_sameOn (a := x) (b := x + 1) img.behindHandler h8 (by omega) x le_rfl (by omega)

/-- what the call of `dispatch_handler` in `s` leaves alone when it comes back in `t` -/
structure DispatchKeeps (img : Gates) (theirs : ℕ → Prop) (s t : Machine) : Prop where
  returned : Returned s t
  mem : ∀ x, theirs x → x + 16 + img.dispatchLocals + img.callDepth < (s.cpu.regs .rsp).toNat ∨
    (s.cpu.regs .rsp).toNat ≤ x → t.mem x = s.mem x
  savedRbp : t.mem.load64 ((s.cpu.regs .rsp).toNat - 8) = s.cpu.regs .rbp

theorem DispatchKeeps.sameOn {t : Machine} (h : DispatchKeeps img theirs s t) {a b : ℕ}
    (hab : ∀ x, a ≤ x → x < b → theirs x ∧
      (x + 16 + img.dispatchLocals + img.callDepth < (s.cpu.regs .rsp).toNat ∨
        (s.cpu.regs .rsp).toNat ≤ x)) : s.mem.SameOn t.mem a b :=
  fun x ha hb => h.mem x (hab x ha hb).1 (hab x ha hb).2

theorem dispatched_congr {m m' : Mem}
    (h : m.SameOn m' ssdtAddress (ssdtAddress + 8 * ssdtSize + 8)) :
    dispatched m' n = dispatched m n := by
  by_cases hbound : n > BitVec.ofNat 32 ssdtSize
  · rw [dispatched, dispatched, if_pos hbound, if_pos hbound]
  have hn : n.toNat ≤ ssdtSize := by
    rw [gt_iff_lt, BitVec.lt_def, Nat.not_lt] at hbound
    exact hbound
  have hentry : tableEntry m' n = tableEntry m n :=
    h.load64 (by rw [Ssdt.entries_eq]; omega) (by rw [Ssdt.entries_eq]; omega)
  rw [dispatched, dispatched, hentry]

/-- where the body of `dispatch_handler`, entered in `s`, calls a handler -/
theorem handlerEntered {t : Machine} (he : Entered img img.dispatchLocals s t)
    (h8 : 8 ≤ (t.cpu.regs .rsp).toNat) : img.HandlerEntered (s.cpu.regs .rsp).toNat
      (16 + img.dispatchLocals) s (pushQword img.behindHandler t) := by
  have hrsp := he.rsp
  have hsub := toNat_sub_of_le h8
  refine ⟨by rw [pushQword_rsp]; omega, fun x hout _ => ?_⟩
  have hpush : (pushQword img.behindHandler t).mem x = t.mem x :=
    pushQword_sameOn (a := x) (b := x + 1) _ h8 (by omega) x le_rfl (by omega)
  exact hpush.trans (he.mem x (x + 1) (by omega) x le_rfl (by omega))

/-- **`dispatch_handler` returns like any call**, wherever the stack is, as long as its frame is not
on the table -/
theorem dispatch_returns (rs : List ℕ) (is : List (BitVec 64))
    (hroom : 16 + img.dispatchLocals + img.callDepth ≤ (s.cpu.regs .rsp).toNat)
    (hend : (s.cpu.regs .rsp).toNat + 8 ≤ 2 ^ 64)
    (htable : ssdtAddress + 8 * ssdtSize + 16 + img.dispatchLocals + img.callDepth
      ≤ (s.cpu.regs .rsp).toNat ∨ (s.cpu.regs .rsp).toNat ≤ ssdtAddress)
    (hframe : ∀ x, (s.cpu.regs .rsp).toNat ≤ x + 8 → x < (s.cpu.regs .rsp).toNat + 8 → theirs x)
    (hconv : ∀ h ∈ dispatched s.mem (edi s), ∀ t,
      img.HandlerEntered (s.cpu.regs .rsp).toNat (16 + img.dispatchLocals) s t →
      ObeysConvention theirs t (img.handler h t)) :
    ∃ g', img.dispatchHandler.run ⟨s, rs, is⟩ = .ret () g' ∧
      g'.invoked = is ++ dispatched s.mem (edi s) ∧
      DispatchKeeps img theirs s g'.machine := by
  have he : Entered img img.dispatchLocals s
      (img.clobber img.dispatchLocals (prologue img.dispatchLocals s)) :=
    entered img (by omega)
  unfold Gates.dispatchHandler
  rw [bind_of_ret (run_onMachine (run_gets _ _)), bind_of_ret (run_step _),
    bind_of_ret (run_step _)]
  generalize img.clobber img.dispatchLocals (prologue img.dispatchLocals s) = t at he ⊢
  have hrsp := he.rsp
  have hrbp := he.rbp
  have hd : dispatched t.mem (edi s) = dispatched s.mem (edi s) :=
    dispatched_congr (he.mem _ _ (by omega))
  have h8 : 8 ≤ (t.cpu.regs .rsp).toNat := by omega
  obtain ⟨g', hrun, hinv, hbody⟩ := dispatchBody_run (g := ⟨t, rs, is⟩) h8
    (by rw [hd]; exact fun h hh => hconv h hh _ (handlerEntered he h8))
  have hkeep : BodyKeeps theirs t g'.machine := hbody
  -- the saved `rbp` and the return address of `dispatch_handler`
  have hwords : t.mem.SameOn g'.machine.mem (t.cpu.regs .rbp).toNat ((t.cpu.regs .rbp).toNat + 16) :=
    fun x h1 h2 => hkeep.mem x (hframe x (by omega) (by omega)) (by omega)
  have hslot : (s.cpu.regs .rsp).toNat - 8 = (t.cpu.regs .rbp).toNat := by omega
  rw [bind_of_ret hrun]
  refine ⟨_, run_step _, by rw [hinv, hd], he.returns hkeep.saved hwords, fun x hx hout => ?_, ?_⟩
  · exact (hkeep.mem x hx (by omega)).trans (he.mem x (x + 1) (by omega) x le_rfl (by omega))
  · rw [hslot, ← he.savedRbp]
    exact hwords.load64 le_rfl (by omega)

end

/-! ## the MSRs -/

/-- the MSRs of the gates -/
structure GateMsrs (img : Gates) (s : Machine) : Prop where
  selector : (s.cpu.msr msrIa32SysenterCs).setWidth 16 &&& 0xFFFC#16 ≠ 0#16
  eip : s.cpu.msr msrIa32SysenterEip = img.sysenterHandlerAt
  esp : s.cpu.msr msrIa32SysenterEsp = BitVec.ofNat 64 img.stackEnd
  lstar : s.cpu.msr msrIa32Lstar = img.syscallHandlerAt
  efer : s.cpu.msr msrIa32Efer &&& eferSyscallEnable ≠ 0#64

section
variable {img : Gates} {s₀ s₁ s : Machine} {g : Guest}

theorem gateMsrs_init (hinit : (initSyscalls img).run s₀ = .ret () s₁)
    (hcs : s₀.cpu.cs &&& 0xFFFC#16 ≠ 0#16) (hmsr : s.cpu.msr = s₁.cpu.msr) : GateMsrs img s := by
  unfold initSyscalls at hinit
  simp only [readCs, run_bind, run_gets, run_writeMsr, run_readMsr] at hinit
  injection hinit with _ hs
  have hlow : ∀ v : BitVec 64, (v ||| eferSyscallEnable) &&& eferSyscallEnable ≠ 0#64 := by
    intro v h
    have h0 := congrArg (fun w => BitVec.getLsbD w 0) h
    simp [eferSyscallEnable] at h0
  have hm := congrArg (fun t : Machine => t.cpu.msr) hs
  simp only at hm
  rw [← hmsr] at hm
  refine ⟨?_, ?_, ?_, ?_, ?_⟩ <;> rw [← hm]
  · rw [Function.update_of_ne (by decide), Function.update_of_ne (by decide),
      Function.update_of_ne (by decide), Function.update_of_ne (by decide),
      Function.update_of_ne (by decide), Function.update_self,
      BitVec.setWidth_setWidth_of_le _ (by omega), BitVec.setWidth_eq]
    exact hcs
  · rw [Function.update_of_ne (by decide), Function.update_of_ne (by decide),
      Function.update_of_ne (by decide), Function.update_of_ne (by decide), Function.update_self]
  · rw [Function.update_of_ne (by decide), Function.update_of_ne (by decide),
      Function.update_of_ne (by decide), Function.update_self]
  · rw [Function.update_of_ne (by decide), Function.update_of_ne (by decide), Function.update_self]
  · rw [Function.update_self]
    exact hlow _

/-! ## `__syscall` -/

def afterSyscall (img : Gates) (s : Machine) : Machine :=
  let star := (s.cpu.msr msrIa32Star).extractLsb' 32 16
  { s with cpu := { s.cpu with
    regs := Function.update (Function.update (Function.update s.cpu.regs .rcx img.behindSyscall)
      .r11 s.cpu.rflags) .rip img.syscallHandlerAt
    rflags := s.cpu.rflags &&& ~~~ s.cpu.msr msrIa32Fmask
    cs := star &&& 0xFFFC#16
    ss := star + 8#16 } }

theorem run_stepSyscall (h : GateMsrs img s) :
    (stepSyscall img.behindSyscall).run s = .ret () (afterSyscall img s) := by
  unfold stepSyscall
  rw [bind_of_ret (run_gets _ _), if_neg h.efer, run_modify]
  simp only [h.lstar, afterSyscall]

theorem afterSyscall_reg {r : Reg} (h : r ≠ .rcx) (h' : r ≠ .r11) (h'' : r ≠ .rip) :
    (afterSyscall img s).cpu.regs r = s.cpu.regs r := by
  simp [afterSyscall, h, h', h'']

/-- the stack when `dispatch_handler` is entered: `rcx`, `r11` and the return address -/
def syscallStack (img : Gates) (s : Machine) : Machine :=
  pushQword img.behindDispatch (pushQword s.cpu.rflags (pushQword img.behindSyscall
    (afterSyscall img s)))

theorem syscallStack_rsp : (syscallStack img s).cpu.regs .rsp
    = s.cpu.regs .rsp - 8#64 - 8#64 - 8#64 := by
  rw [syscallStack, pushQword_rsp, pushQword_rsp, pushQword_rsp,
    afterSyscall_reg (by decide) (by decide) (by decide)]

theorem syscallStack_reg {r : Reg} (hr : calleeSaved r) (hne : r ≠ .rsp) :
    (syscallStack img s).cpu.regs r = s.cpu.regs r := by
  rw [syscallStack, pushQword_reg _ hne, pushQword_reg _ hne, pushQword_reg _ hne]
  exact afterSyscall_reg (ne_of_calleeSaved hr rfl) (ne_of_calleeSaved hr rfl)
    (ne_of_calleeSaved hr rfl)

/-- what is pushed behind `rcx` -/
theorem syscallStack_behind (h : 24 ≤ (s.cpu.regs .rsp).toNat) {a b : ℕ}
    (hab : b + 24 ≤ (s.cpu.regs .rsp).toNat ∨ (s.cpu.regs .rsp - 8#64).toNat ≤ a) :
    (pushQword img.behindSyscall (afterSyscall img s)).mem.SameOn (syscallStack img s).mem a b := by
  have h1 := toNat_sub_of_le (x := s.cpu.regs .rsp) (n := 8) (by omega)
  have h2 := toNat_sub_of_le (x := s.cpu.regs .rsp - 8#64) (n := 8) (by omega)
  have hrsp : (afterSyscall img s).cpu.regs .rsp = s.cpu.regs .rsp :=
    afterSyscall_reg (by decide) (by decide) (by decide)
  have hrsp₁ : (pushQword img.behindSyscall (afterSyscall img s)).cpu.regs .rsp
      = s.cpu.regs .rsp - 8#64 := by rw [pushQword_rsp, hrsp]
  have hrsp₂ : (pushQword s.cpu.rflags (pushQword img.behindSyscall (afterSyscall img s))).cpu.regs
      .rsp = s.cpu.regs .rsp - 8#64 - 8#64 := by rw [pushQword_rsp, hrsp₁]
  refine (pushQword_sameOn s.cpu.rflags ?_ ?_).trans (pushQword_sameOn img.behindDispatch ?_ ?_)
    <;> simp only [hrsp₁, hrsp₂] <;> omega

theorem syscallStack_sameOn (h : 24 ≤ (s.cpu.regs .rsp).toNat) {a b : ℕ}
    (hab : b + 24 ≤ (s.cpu.regs .rsp).toNat ∨ (s.cpu.regs .rsp).toNat ≤ a) :
    s.mem.SameOn (syscallStack img s).mem a b := by
  have h1 := toNat_sub_of_le (x := s.cpu.regs .rsp) (n := 8) (by omega)
  have hrsp : (afterSyscall img s).cpu.regs .rsp = s.cpu.regs .rsp :=
    afterSyscall_reg (by decide) (by decide) (by decide)
  have hpush : s.mem.SameOn (pushQword img.behindSyscall (afterSyscall img s)).mem a b :=
    pushQword_sameOn (s := afterSyscall img s) _ (by rw [hrsp]; omega) (by rw [hrsp]; omega)
  exact hpush.trans (syscallStack_behind h (by omega))

theorem syscallStack_rcx (h : 24 ≤ (s.cpu.regs .rsp).toNat) :
    (syscallStack img s).mem.load64 (s.cpu.regs .rsp - 8#64).toNat = img.behindSyscall := by
  have h1 := toNat_sub_of_le (x := s.cpu.regs .rsp) (n := 8) (by omega)
  have hrsp : (pushQword img.behindSyscall (afterSyscall img s)).cpu.regs .rsp
      = s.cpu.regs .rsp - 8#64 := by
    rw [pushQword_rsp, afterSyscall_reg (by decide) (by decide) (by decide)]
  have htop := pushQword_top (s := afterSyscall img s) img.behindSyscall
  rw [hrsp] at htop
  have hsame : (pushQword img.behindSyscall (afterSyscall img s)).mem.SameOn (syscallStack img s).mem
      (s.cpu.regs .rsp - 8#64).toNat (s.cpu.regs .rsp).toNat := syscallStack_behind h (.inr le_rfl)
  rw [hsame.load64 le_rfl (by omega), htop]

theorem popf_pop_reg (t : Machine) {r : Reg} (h1 : r ≠ .rsp) (h2 : r ≠ .rcx) :
    (popQword .rcx (popf t)).cpu.regs r = t.cpu.regs r := by
  simp [popQword, popf, h1, h2]

theorem popf_pop_rcx (t : Machine) : (popQword .rcx (popf t)).cpu.regs .rcx
    = t.mem.load64 (t.cpu.regs .rsp + 8#64).toNat := by
  simp [popQword, popf]

theorem popf_pop_rsp (t : Machine) : (popQword .rcx (popf t)).cpu.regs .rsp
    = t.cpu.regs .rsp + 8#64 + 8#64 := by
  simp [popQword, popf]

theorem run_enter_syscall (rs : List ℕ) (is : List (BitVec 64)) :
    img.enter.run ⟨afterSyscall img s, rs, is⟩
      = img.syscallHandler.run ⟨afterSyscall img s, rs, is⟩ := by
  have hrip : (afterSyscall img s).cpu.regs .rip = img.syscallHandlerAt := by simp [afterSyscall]
  unfold Gates.enter
  rw [bind_of_ret (run_getReg .rip)]
  show Code.run (if (afterSyscall img s).cpu.regs .rip = img.sysenterHandlerAt then _ else
    if (afterSyscall img s).cpu.regs .rip = img.syscallHandlerAt then _ else _) _ = _
  rw [hrip, if_neg img.handlers_ne.symm, if_pos rfl]

theorem run_syscallHandler {rs : List ℕ} {is : List (BitVec 64)}
    (h : (callFunction img.behindDispatch img.dispatchHandler).run
      ⟨pushQword s.cpu.rflags (pushQword img.behindSyscall (afterSyscall img s)), rs, is⟩
      = .ret () g) :
    img.syscallHandler.run ⟨afterSyscall img s, rs, is⟩ = .ret () { g with
      machine := setRip ((popQword .rcx (popf g.machine)).cpu.regs .rcx)
        (popQword .rcx (popf g.machine)) } := by
  have hcx : (afterSyscall img s).cpu.regs .rcx = img.behindSyscall := by simp [afterSyscall]
  have h11 : (afterSyscall img s).cpu.regs .r11 = s.cpu.rflags := by simp [afterSyscall]
  unfold Gates.syscallHandler
  rw [bind_of_ret (run_step _), bind_of_ret (run_step _)]
  simp only [hcx, pushQword_reg _ (show Reg.r11 ≠ .rsp by decide), h11]
  rw [bind_of_ret h, bind_of_ret (run_step _), bind_of_ret (run_step _)]
  rfl

/-- the machine `t` after the call of `dispatch_handler` in `__syscall_handler` -/
structure SyscallDispatched (img : Gates) (s t : Machine) : Prop where
  rsp : t.cpu.regs .rsp = s.cpu.regs .rsp - 8#64 - 8#64
  saved : ∀ r, calleeSaved r → r ≠ .rsp → t.cpu.regs r = s.cpu.regs r
  rcx : t.mem.load64 (s.cpu.regs .rsp - 8#64).toNat = img.behindSyscall
  ret : t.mem.load64 (s.cpu.regs .rsp).toNat = s.mem.load64 (s.cpu.regs .rsp).toNat

theorem syscall_dispatched
    (hroom : 40 + img.dispatchLocals + img.callDepth ≤ (s.cpu.regs .rsp).toNat)
    (hend : (s.cpu.regs .rsp).toNat + 8 ≤ 2 ^ 64)
    (htable : ssdtAddress + 8 * ssdtSize + 40 + img.dispatchLocals + img.callDepth
      ≤ (s.cpu.regs .rsp).toNat ∨ (s.cpu.regs .rsp).toNat ≤ ssdtAddress)
    (hconv : HandlersObey img s) :
    ∃ g, (callFunction img.behindDispatch img.dispatchHandler).run
        ⟨pushQword s.cpu.rflags (pushQword img.behindSyscall (afterSyscall img s)), [], []⟩
        = .ret () g ∧
      g.invoked = dispatched s.mem (edi s) ∧ SyscallDispatched img s g.machine := by
  have hrsp : (syscallStack img s).cpu.regs .rsp = s.cpu.regs .rsp - 8#64 - 8#64 - 8#64 :=
    syscallStack_rsp
  have h1 := toNat_sub_of_le (x := s.cpu.regs .rsp) (n := 8) (by omega)
  have h2 := toNat_sub_of_le (x := s.cpu.regs .rsp - 8#64) (n := 8) (by omega)
  have h3 := toNat_sub_of_le (x := s.cpu.regs .rsp - 8#64 - 8#64) (n := 8) (by omega)
  have hedi : edi (syscallStack img s) = edi s := by
    rw [edi, edi, syscallStack, pushQword_reg _ (by decide), pushQword_reg _ (by decide),
      pushQword_reg _ (by decide), afterSyscall_reg (by decide) (by decide) (by decide)]
  have hd : dispatched (syscallStack img s).mem (edi s) = dispatched s.mem (edi s) :=
    dispatched_congr (syscallStack_sameOn (by omega) (by omega))
  have hentered : ∀ t, img.HandlerEntered ((syscallStack img s).cpu.regs .rsp).toNat
      (16 + img.dispatchLocals) (syscallStack img s) t →
      img.HandlerEntered (s.cpu.regs .rsp).toNat (40 + img.dispatchLocals) s t := by
    intro t ht
    have hsp := ht.rsp
    rw [hrsp] at hsp
    refine ⟨by omega, fun x hout hcell => (ht.mem x (by rw [hrsp]; omega) hcell).trans ?_⟩
    exact (syscallStack_sameOn (a := x) (b := x + 1) (by omega) (by omega)) x le_rfl (by omega)
  obtain ⟨g, hrun, hinv, hkeep⟩ := @dispatch_returns img (img.syscallFrames s) (syscallStack img s) [] []
    (by rw [hrsp]; omega) (by rw [hrsp]; omega) (by rw [hrsp]; omega)
    (fun x h h' => by rw [hrsp] at h h'; exact ⟨by omega, by omega⟩)
    (by rw [hedi, hd]; exact fun h hh t ht => hconv.syscall h hh t (hentered t ht))
  rw [hedi, hd] at hinv
  have hframes : (syscallStack img s).mem.SameOn g.machine.mem (s.cpu.regs .rsp - 8#64).toNat
      ((s.cpu.regs .rsp).toNat + 8) :=
    hkeep.sameOn fun x _ _ => ⟨⟨by omega, by omega⟩, by rw [hrsp]; omega⟩
  refine ⟨g, run_callFunction hrun hkeep.returned, hinv, ⟨?_, fun r hr hne => ?_, ?_, ?_⟩⟩
  · rw [hkeep.returned.rsp, hrsp, BitVec.sub_add_cancel]
  · rw [hkeep.returned.saved r hr hne, syscallStack_reg hr hne]
  · rw [hframes.load64 (by omega) (by omega), syscallStack_rcx (by omega)]
  · rw [hframes.load64 (by omega) (by omega),
      (syscallStack_sameOn (by omega) (Or.inr le_rfl)).load64 le_rfl le_rfl]

/-- **`__syscall` returns like any call**, on every stack with room for its frames that is not on the
table, and invokes the handler of the number -/
theorem syscall_returns (h : GateMsrs img s)
    (hroom : 40 + img.dispatchLocals + img.callDepth ≤ (s.cpu.regs .rsp).toNat)
    (hend : (s.cpu.regs .rsp).toNat + 8 ≤ 2 ^ 64)
    (htable : ssdtAddress + 8 * ssdtSize + 40 + img.dispatchLocals + img.callDepth
      ≤ (s.cpu.regs .rsp).toNat ∨ (s.cpu.regs .rsp).toNat ≤ ssdtAddress)
    (hconv : HandlersObey img s) :
    ∃ g, img.syscall.run (Guest.init s) = .ret () g ∧
      g.invoked = dispatched s.mem (edi s) ∧ Returned s g.machine := by
  obtain ⟨g, hback, hinv, hdisp⟩ := syscall_dispatched hroom hend htable hconv
  -- `popf` and `pop rcx` find what the pushes left, and `ret` the caller's return address
  have hcx : (popQword .rcx (popf g.machine)).cpu.regs .rcx = img.behindSyscall := by
    rw [popf_pop_rcx, hdisp.rsp, BitVec.sub_add_cancel, hdisp.rcx]
  have hsp : (popQword .rcx (popf g.machine)).cpu.regs .rsp = s.cpu.regs .rsp := by
    rw [popf_pop_rsp, hdisp.rsp, BitVec.sub_add_cancel, BitVec.sub_add_cancel]
  have hhandler := run_syscallHandler hback
  rw [hcx] at hhandler
  have hstep : (onMachine (stepSyscall img.behindSyscall)).run (Guest.init s)
      = .ret () ⟨afterSyscall img s, [], []⟩ := run_onMachine (run_stepSyscall h)
  have hrip : (setRip img.behindSyscall (popQword .rcx (popf g.machine))).cpu.regs .rip
      = img.behindSyscall := by simp [setRip]
  unfold Gates.syscall
  rw [bind_of_ret hstep, bind_of_ret ((run_enter_syscall _ _).trans hhandler),
    bind_of_ret (run_getReg .rip), if_pos hrip]
  refine ⟨_, run_step _, hinv, ⟨?_, ?_, fun r hr hne => ?_⟩⟩
  · rw [← hdisp.ret, ← hsp]
    simp [popQword, setRip, popf]
  · rw [← hsp]
    simp [popQword, setRip, popf]
  · have hrip : r ≠ .rip := ne_of_calleeSaved hr rfl
    have hcx : r ≠ .rcx := ne_of_calleeSaved hr rfl
    have hkept : (popQword .rcx (popf g.machine)).cpu.regs r = s.cpu.regs r := by
      rw [popf_pop_reg _ hne hcx, hdisp.saved r hr hne]
    rw [← hkept]
    simp [popQword, setRip, hne, hrip]

end

end HyperC
