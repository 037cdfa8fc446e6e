import HyperC.Bios.Modes
import HyperC.Lib.Code

/-!
# `switch_modes.asm` and `real_mode_callback`

A callback runs in real mode: `real_mode_callback` switches from long mode to protected mode and to
real mode, calls it, and switches back.  The code runs in a copy in the first 64 KiB, and every call in
it is left in another mode than it was made in.

* `RealModeCode`          where the labels are, and what becomes of upper halves;
* `Path`                  the machine, and the states in which the callback has been entered;
* `call`                  a call whose return is to land behind it, in code of the right width;
* `longToProtected`, `protectedToReal`, `realToProtected`, `protectedToLongLowerMemory`   the switches;
* `callRealModeFunction`, `realModeCallback`   the path through them.

A return that lands elsewhere, or in code of another width, hands control over, for good.
-/

namespace HyperC.Bios
open Code

def protectionEnable : BitVec 32 := 1#32 <<< 0
def pagingFlag : BitVec 32 := 1#32 <<< 31
def paeFlag : BitVec 32 := 1#32 <<< 5
def longModeFlag : BitVec 32 := 1#32 <<< 8
def realModeBaseAddress : ℕ := 0x7E00
def lowerMemoryStackTop : ℕ := 0x7BFF
def ia32ePagingBase : BitVec 64 := 0x110000#64
def ivtPointer : TableReg := ⟨0x3ff#16, 0#64⟩

/-- the places in the code that is copied: the labels that are jumped to, and what stands behind the
calls of `call_real_mode_function` -/
inductive Label where
  | callRealModeFunction | compatibilityMode | protectedRealMode | realMode | protectedMode | longMode
  | behindLongToProtected | behindProtectedToReal | behindCallback | behindRealToProtected
  | behindProtectedToLong

/-- the code between `real_mode_start` and `real_mode_end`, of which the copy ends below 64 KiB.
`upper` is what the processor makes of the upper halves of the registers when it leaves 64-bit code: it
need not keep them, but one that is zero stays zero -/
structure RealModeCode where
  realModeStart : ℕ
  size : ℕ
  offset : Label → ℕ
  /-- the address behind `call rax`, in the code that is not copied -/
  behindCall : BitVec 64
  upper : BitVec 32 → BitVec 32
  start_lt : realModeStart < 2 ^ 31
  size_le : realModeBaseAddress + size ≤ 2 ^ 16
  offset_lt : ∀ l, offset l < size
  upper_zero : upper 0#32 = 0#32

/-- `REAL_MODE_RELOCATION(l)` -/
def RealModeCode.relocation (img : RealModeCode) (l : Label) : BitVec 64 :=
  BitVec.ofNat 64 (img.offset l + realModeBaseAddress)

/-- what a callback makes of the machine, from its entry to its `ret` -/
abbrev Callback := Machine → Machine

structure Path where
  machine : Machine
  entries : List Machine

def instr (f : Machine → Machine) : Code Path Unit := modify fun p => { p with machine := f p.machine }

/-- control is to be at the address, in code of so many bits -/
def continueAt (rip : BitVec 64) (bits : ℕ) : Code Path Unit := do
  let s ← gets Path.machine
  if s.cpu.regs .rip = rip ∧ codeBits s = bits then pure () else leave id

/-- a call, and code of so many bits behind it -/
def call (next : BitVec 64) (bits : ℕ) (body : Code Path Unit) : Code Path Unit := do
  instr (pushWord next)
  body
  continueAt next bits

namespace RealModeCode
variable (img : RealModeCode) (cb : Callback)

def longToProtected : Code Path Unit := do
  instr (pushWord (ia32CodeSegment.setWidth 64))
  instr (pushWord (img.relocation .compatibilityMode))
  instr (retfq img.upper)
  continueAt (img.relocation .compatibilityMode) 32
  instr (setDataSegments ia32DataSegment)
  instr (editCr0 fun eax => eax &&& ~~~ pagingFlag)
  instr (editEfer fun eax => eax &&& ~~~ longModeFlag)
  instr (editCr4 fun eax => eax &&& ~~~ paeFlag)
  instr (ret 4)

def protectedToReal : Code Path Unit := do
  instr cli
  instr (farJump realModeCodeSegment (img.relocation .protectedRealMode))
  continueAt (img.relocation .protectedRealMode) 16
  instr (setDataSegments realModeDataSegment)
  instr (lidt ivtPointer)
  instr (editCr0 fun eax => eax &&& ~~~ protectionEnable)
  instr (farJump 0#16 (img.relocation .realMode))
  continueAt (img.relocation .realMode) 16
  instr (setDataSegments 0#16)
  instr (ret 2)

def realToProtected : Code Path Unit := do
  instr (popWord .rdi)
  instr cli
  instr (editCr0 fun eax => eax ||| protectionEnable)
  instr (farJump ia32CodeSegment (img.relocation .protectedMode))
  continueAt (img.relocation .protectedMode) 32
  instr (setDataSegments ia32DataSegment)
  instr fun s => putReg .rdi (low 32 (s.cpu.regs .rdi &&& 0xFFFF#64)) s
  instr fun s => pushWord (s.cpu.regs .rdi) s
  instr (ret 0)

def protectedToLongLowerMemory : Code Path Unit := do
  instr (popWord .rsi)
  instr (editCr0 fun eax => eax &&& ~~~ pagingFlag)
  instr (editCr4 fun eax => eax ||| paeFlag)
  instr (setCr3 ia32ePagingBase)
  instr (editEfer fun eax => eax ||| longModeFlag)
  instr (editCr0 fun eax => eax ||| pagingFlag)
  instr (farJump ia32eCodeSegment (img.relocation .longMode))
  continueAt (img.relocation .longMode) 64
  instr (setDataSegments ia32eDataSegment)
  -- the immediate `0xFFFFFFFF` is sign-extended
  instr fun s => putReg .rsi (s.cpu.regs .rsi &&& 0xFFFFFFFFFFFFFFFF#64) s
  instr fun s => pushWord (s.cpu.regs .rsi) s
  instr (ret 0)

/-- the callback, to which `call di` jumps -/
def callback : Code Path Unit := do
  instr fun s => putReg .rip (low 16 (s.cpu.regs .rdi)) s
  modify fun p => { p with entries := p.entries ++ [p.machine] }
  instr cb
  instr (ret 0)

def callRealModeFunction : Code Path Unit := do
  call (img.relocation .behindLongToProtected) 32 img.longToProtected
  call (img.relocation .behindProtectedToReal) 16 img.protectedToReal
  call (img.relocation .behindCallback) 16 (callback cb)
  call (img.relocation .behindRealToProtected) 32 img.realToProtected
  call (img.relocation .behindProtectedToLong) 64 img.protectedToLongLowerMemory
  instr (ret 0)

def realModeCallback : Code Path Unit := do
  -- `enter 0, 0`
  instr fun s => pushWord (s.cpu.regs .rbp) s
  instr fun s => putReg .rbp (s.cpu.regs .rsp) s
  instr (putReg .rsp (BitVec.ofNat 64 lowerMemoryStackTop))
  instr fun s => putReg .rdi (s.cpu.regs .rdi - BitVec.ofNat 64 img.realModeStart) s
  instr fun s => putReg .rdi (s.cpu.regs .rdi + BitVec.ofNat 64 realModeBaseAddress) s
  instr (putReg .rax (img.relocation .callRealModeFunction))
  call img.behindCall 64 do
    instr fun s => putReg .rip (s.cpu.regs .rax) s
    continueAt (img.relocation .callRealModeFunction) 64
    img.callRealModeFunction cb
  -- `leave`
  instr fun s => putReg .rsp (s.cpu.regs .rbp) s
  instr (popWord .rbp)
  instr (ret 0)

end RealModeCode

end HyperC.Bios
