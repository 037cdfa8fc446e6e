import HyperC.Lib.Code
import HyperC.Lib.Fields
import HyperC.Lib.Memory

/-!
# The machine: memory, processor, VMCS, log

The state both the hypervisor and its guest run on.  Physical memory is the byte memory `Mem`; the
hypervisor's linear addresses are physical ones, so a C pointer is a natural number and a pointer
cast to `qword_t` is `BitVec.ofNat 64`.

* `Reg`, `Cpu`, `Machine`    the registers, the processor and the whole state;
* `vmread`, `vmwrite`, `vmwrites`   the current VMCS as a map from field encodings to values;
* `readMsr`, `writeMsr`, `readCr0` ..  the inline-assembly wrappers;
* `logLog`, `panic`, `assertNot`   the log, and the two macros that end in it.

A log line is kept as the level, the format and the arguments that `log_log` is called with.
-/

namespace HyperC

/-- the levels of the log -/
inductive LogLevel where
  | debug | info | warn | error | fatal
deriving DecidableEq, Inhabited

def LogLevel.toNat : LogLevel → ℕ
  | .debug => 0
  | .info => 1
  | .warn => 2
  | .error => 3
  | .fatal => 4

/-- an argument of a log line; a string is `none` if its pointer is `NULL` or no string at all -/
inductive LogArg where
  | int (v : BitVec 64)
  | str (v : Option String)
deriving DecidableEq

/-- one line of the log -/
structure LogLine where
  level : LogLevel
  fmt : String
  args : List LogArg
deriving DecidableEq

/-- the fields of `registers_t`, in their order: the general registers, `rsp` and `rip` -/
inductive Reg where
  | rax | rbx | rcx | rdx | rsi | rdi | rbp | r8 | r9 | r10 | r11 | r12 | r13 | r14 | r15 | rsp | rip
deriving DecidableEq

/-- the contents of a register file -/
abbrev Regs := Reg → BitVec 64

/-- a descriptor-table register (`gdtr_t`, `idtr_t`) -/
structure TableReg where
  limit : BitVec 16
  base : BitVec 64
deriving Inhabited

/-- the logical processor -/
structure Cpu where
  regs : Regs
  rflags : BitVec 64
  cr0 : BitVec 64
  cr3 : BitVec 64
  cr4 : BitVec 64
  dr7 : BitVec 64
  cs : BitVec 16
  ss : BitVec 16
  ds : BitVec 16
  es : BitVec 16
  fs : BitVec 16
  gs : BitVec 16
  fsBase : BitVec 64
  gdtr : TableReg
  idtr : TableReg
  msr : BitVec 32 → BitVec 64
deriving Inhabited

/-- the machine -/
structure Machine where
  mem : Mem
  cpu : Cpu
  vmcs : ℕ → BitVec 64
  minLevel : LogLevel
  log : List LogLine
deriving Inhabited

/-- a C function with result `α` -/
abbrev Host (α : Type) := Code Machine α

open Code

/-! ## memory -/

def modifyMem (f : Mem → Mem) : Host Unit := modify fun s => { s with mem := f s.mem }

def loadQword (a : ℕ) : Host (BitVec 64) := gets fun s => s.mem.load64 a

def storeQword (a : ℕ) (v : BitVec 64) : Host Unit := modifyMem fun m => m.store64 a v

def storeDword (a : ℕ) (v : BitVec 32) : Host Unit := modifyMem fun m => @Mem.store m a 4 v

section
variable (s : Machine) (a : ℕ)

@[simp] theorem run_modifyMem (f : Mem → Mem) :
    (modifyMem f).run s = .ret () { s with mem := f s.mem } := rfl

@[simp] theorem run_loadQword : (loadQword a).run s = .ret (s.mem.load64 a) s := rfl

@[simp] theorem run_storeQword (v : BitVec 64) :
    (storeQword a v).run s = .ret () { s with mem := s.mem.store64 a v } := rfl

end

/-- a pointer plus an `int` index of bytes -/
def ptrAdd (p : ℕ) (i : BitVec 32) : ℕ := (p + i.toInt).toNat

theorem each_mem {β : Type} {f : β → Host Unit} {g : Mem → β → Mem} {bs : List β}
    (h : ∀ b ∈ bs, ∀ s, (f b).run s = .ret () { s with mem := g s.mem b }) (s : Machine) :
    (each f bs).run s = .ret () { s with mem := bs.foldl g s.mem } := by
  induction bs generalizing s with
  | nil => rfl
  | cons b bs ih =>
    rw [each_cons, bind_of_ret (h b List.mem_cons_self s),
      ih fun b' hb' => h b' (List.mem_cons_of_mem _ hb')]
    rfl

/-! ## the log -/

/-- the log after `log_log(level, fmt, args)` -/
def logged (s : Machine) (level : LogLevel) (fmt : String) (args : List LogArg) : List LogLine :=
  if level.toNat < s.minLevel.toNat then s.log else s.log ++ [⟨level, fmt, args⟩]

def logLog (level : LogLevel) (fmt : String) (args : List LogArg) : Host Unit :=
  modify fun s => { s with log := logged s level fmt args }

def logDebug (fmt : String) (args : List LogArg) : Host Unit := logLog .debug fmt args
def logInfo (fmt : String) (args : List LogArg) : Host Unit := logLog .info fmt args
def logError (fmt : String) (args : List LogArg) : Host Unit := logLog .error fmt args

section
variable (s : Machine) (fmt : String) (args : List LogArg)

@[simp] theorem run_logDebug :
    (logDebug fmt args).run s = .ret () { s with log := logged s .debug fmt args } := rfl

@[simp] theorem run_logInfo :
    (logInfo fmt args).run s = .ret () { s with log := logged s .info fmt args } := rfl

@[simp] theorem run_logError :
    (logError fmt args).run s = .ret () { s with log := logged s .error fmt args } := rfl

end

def setLogLevel (level : LogLevel) : Host Unit := modify fun s => { s with minLevel := level }

/-- `PANIC`: log the message, then `hlt` for ever -/
def panic {α : Type} (fmt : String) (args : List LogArg) : Host α := do
  logLog .fatal fmt args
  halt

@[simp] theorem run_panic {α : Type} (fmt : String) (args : List LogArg) (s : Machine) :
    (panic fmt args : Host α).run s = .halt { s with log := logged s .fatal fmt args } := rfl

/-- `ASSERT(condition)`: `test` is `!condition` the way C parses it after the textual expansion,
`text` the text of the condition after macro expansion -/
def assertNot (test : Prop) [Decidable test] (text : String) : Host Unit :=
  if test then panic "Assertion failed: %s" [.str (some text)] else pure ()

theorem assertNot_pass {test : Prop} [Decidable test] (h : ¬ test) (text : String) (s : Machine) :
    (assertNot test text).run s = .ret () s := by
  rw [assertNot, if_neg h]
  rfl

theorem assertNot_stops {test : Prop} [Decidable test] (h : test) (text : String) (s : Machine) :
    ∃ s', (assertNot test text).run s = .halt s' := by
  rw [assertNot, if_pos h]
  exact ⟨_, rfl⟩

/-! ## the processor -/

def readCr0 : Host (BitVec 64) := gets fun s => s.cpu.cr0
def readCr3 : Host (BitVec 64) := gets fun s => s.cpu.cr3
def readCr4 : Host (BitVec 64) := gets fun s => s.cpu.cr4
def readDr7 : Host (BitVec 64) := gets fun s => s.cpu.dr7
def readRflags : Host (BitVec 64) := gets fun s => s.cpu.rflags
def readCs : Host (BitVec 16) := gets fun s => s.cpu.cs
def readSs : Host (BitVec 16) := gets fun s => s.cpu.ss
def readDs : Host (BitVec 16) := gets fun s => s.cpu.ds
def readEs : Host (BitVec 16) := gets fun s => s.cpu.es
def readFs : Host (BitVec 16) := gets fun s => s.cpu.fs
def readGs : Host (BitVec 16) := gets fun s => s.cpu.gs
def readGdtr : Host TableReg := gets fun s => s.cpu.gdtr
def readIdtr : Host TableReg := gets fun s => s.cpu.idtr

def writeCr0 (v : BitVec 64) : Host Unit := modify fun s => { s with cpu := { s.cpu with cr0 := v } }
def writeCr4 (v : BitVec 64) : Host Unit := modify fun s => { s with cpu := { s.cpu with cr4 := v } }
def writeDr7 (v : BitVec 64) : Host Unit := modify fun s => { s with cpu := { s.cpu with dr7 := v } }

/-- `rdmsr` gives the two halves, which the wrapper puts together again -/
def readMsr (msr : BitVec 32) : Host (BitVec 64) := do
  let v ← gets fun s => s.cpu.msr msr
  let lsb := v.extractLsb' 0 32
  let msb := v.extractLsb' 32 32
  return (msb.setWidth 64 <<< 32) ||| lsb.setWidth 64

@[simp] theorem run_readMsr (msr : BitVec 32) (s : Machine) :
    (readMsr msr).run s = .ret (s.cpu.msr msr) s := by
  have h : ∀ v : BitVec 64,
      ((v.extractLsb' 32 32).setWidth 64 <<< 32) ||| (v.extractLsb' 0 32).setWidth 64 = v := by
    intro v
    apply BitVec.eq_of_getLsbD_eq
    intro i hi
    by_cases h : i < 32
    · simp [h, hi]
    · have h1 : 32 + (i - 32) = i := by omega
      have h2 : i - 32 < 32 := by omega
      simp [h, h1, h2, hi]
  show Outcome.ret _ s = _
  rw [h]

/-- `wrmsr` with the halves of `value` in `edx` and `eax` -/
def writeMsr (msr : BitVec 32) (value : BitVec 64) : Host Unit :=
  let edx := (value >>> 32).setWidth 32
  let eax := (value &&& 0xFFFFFFFF#64).setWidth 32
  modify fun s => { s with cpu := { s.cpu with msr := Function.update s.cpu.msr msr (edx ++ eax) } }

@[simp] theorem run_writeMsr (msr : BitVec 32) (value : BitVec 64) (s : Machine) :
    (writeMsr msr value).run s
      = .ret () { s with cpu := { s.cpu with msr := Function.update s.cpu.msr msr value } } := by
  have h : BitVec.append ((value >>> 32).setWidth 32) ((value &&& 0xFFFFFFFF#64).setWidth 32)
      = value := by
    apply BitVec.eq_of_getLsbD_eq
    intro i hi
    refine (BitVec.getLsbD_append (x := (value >>> 32).setWidth 32)
      (y := (value &&& 0xFFFFFFFF#64).setWidth 32) (i := i)).trans ?_
    rw [BitVec.getLsbD_setWidth, BitVec.getLsbD_setWidth, Bits.getLsbD_low32]
    by_cases h : i < 32
    · simp [h]
    · have h1 : i - 32 < 32 := by omega
      have h2 : 32 + (i - 32) = i := by omega
      simp [h, h1, h2]
  show Outcome.ret () _ = _
  exact congrArg (fun v => Outcome.ret () { s with cpu := { s.cpu with
    msr := Function.update s.cpu.msr msr v } }) h

/-! ## the current VMCS -/

def vmread (field : ℕ) : Host (BitVec 64) := gets fun s => s.vmcs field

def vmwrite (field : ℕ) (value : BitVec 64) : Host Unit :=
  modify fun s => { s with vmcs := Function.update s.vmcs field value }

@[simp] theorem run_vmread (field : ℕ) (s : Machine) :
    (vmread field).run s = .ret (s.vmcs field) s := rfl

@[simp] theorem run_vmwrite (field : ℕ) (value : BitVec 64) (s : Machine) :
    (vmwrite field value).run s = .ret () { s with vmcs := Function.update s.vmcs field value } := rfl

/-- what a list of `vmwrite`s makes of the VMCS -/
def vmwrites (ws : List (ℕ × BitVec 64)) (vmcs : ℕ → BitVec 64) : ℕ → BitVec 64 :=
  ws.foldl (fun f w => Function.update f w.1 w.2) vmcs

theorem vmwrites_append (ws ws' : List (ℕ × BitVec 64)) (vmcs : ℕ → BitVec 64) :
    vmwrites (ws ++ ws') vmcs = vmwrites ws' (vmwrites ws vmcs) := List.foldl_append

theorem vmwrites_of_not_mem (ws : List (ℕ × BitVec 64)) (vmcs : ℕ → BitVec 64) (field : ℕ)
    (h : field ∉ ws.map Prod.fst) : vmwrites ws vmcs field = vmcs field := by
  induction ws generalizing vmcs with
  | nil => rfl
  | cons w ws ih =>
    rw [List.map_cons, List.mem_cons, not_or] at h
    show vmwrites ws (Function.update vmcs w.1 w.2) field = _
    rw [ih _ h.2, Function.update_of_ne h.1]

theorem vmwrites_of_mem (ws : List (ℕ × BitVec 64)) (vmcs : ℕ → BitVec 64) {field : ℕ}
    {v : BitVec 64} (hn : (ws.map Prod.fst).count field ≤ 1) (hm : (field, v) ∈ ws) :
    vmwrites ws vmcs field = v := by
  induction ws generalizing vmcs with
  | nil => cases hm
  | cons w ws ih =>
    rw [List.map_cons] at hn
    show vmwrites ws (Function.update vmcs w.1 w.2) field = _
    rcases List.mem_cons.mp hm with rfl | hm
    · rw [List.count_cons_self] at hn
      rw [vmwrites_of_not_mem _ _ _ (List.count_eq_zero.mp (by omega)), Function.update_self]
    · exact ih _ (le_trans List.count_le_count_cons hn) hm

/-! ## steps that leave a byte alone -/

def byteAt (x : ℕ) (s : Machine) : BitVec 8 := s.mem x

section
variable {α β : Type} (x : ℕ)

theorem keeps_of_mem {y : Host α} (h : ∀ s, (y.run s).state.mem = s.mem) : Keeps (byteAt x) y :=
  fun s => congrFun (h s) x

theorem keeps_of_ret {y : Host α} (h : ∀ s, ∃ a t, y.run s = .ret a t ∧ t.mem x = s.mem x) :
    Keeps (byteAt x) y := by
  intro s
  obtain ⟨a, t, hrun, hmem⟩ := h s
  rw [hrun]
  exact hmem

theorem keeps_then {y : Host α} {g : α → Host β} (h : ∀ s, (y.run s).state.mem = s.mem)
    (hg : ∀ a, Keeps (byteAt x) (g a)) : Keeps (byteAt x) (y >>= g) :=
  (keeps_of_mem x h).bind hg

theorem keeps_logInfo (fmt : String) (args : List LogArg) : Keeps (byteAt x) (logInfo fmt args) :=
  keeps_of_mem x fun _ => rfl

theorem keeps_modifyMem {f : Mem → Mem} (h : ∀ m, f m x = m x) : Keeps (byteAt x) (modifyMem f) :=
  fun s => h s.mem

theorem keeps_storeDword (a : ℕ) (v : BitVec 32) (h : x < a ∨ a + 4 ≤ x) :
    Keeps (byteAt x) (storeDword a v) := fun s => @Mem.store_outside s.mem a 4 v x h

theorem keeps_storeQword (a : ℕ) (v : BitVec 64) (h : x < a ∨ a + 8 ≤ x) :
    Keeps (byteAt x) (storeQword a v) := fun s => Mem.store64_outside s.mem a v x h

theorem keeps_assertNot (test : Prop) [Decidable test] (text : String) :
    Keeps (byteAt x) (assertNot test text) := by
  unfold assertNot
  exact Keeps.ite (keeps_of_mem x fun _ => rfl) (keeps_of_mem x fun _ => rfl)

end

end HyperC
