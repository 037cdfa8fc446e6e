import HyperC.Machine.Encodings
import HyperC.Machine.State

/-!
# The modes of the processor

The width of an instruction comes from the code segment, and that of the stack pointer from the stack
segment, so a word that is pushed in one mode may be popped in another one with another width.

* `gdt`, `codeBits`, `stackBits`   the descriptors of `gdt.asm`, and what they make of the mode;
* `pushWord`, `popWord`, `ret`, `retfq`, `farJump`   the instructions on the stack, in every mode;
* `editCr0`, `editCr4`, `editEfer`, `setDataSegments`, `setCr3`   the instructions that change the mode;
* `pushWord_low`, `popWord_low`, `ret_low`   on a stack in the first 64 KiB the three stack pointers
                                             `rsp`, `esp` and `sp` are the same.
-/

namespace HyperC.Bios

def gdt : List (BitVec 64) :=
  [0#64, 0x00AF9A000000FFFF#64, 0x008F92000000FFFF#64, 0x00CF9A000000FFFF#64, 0x00009A000000FFFF#64,
    0x00CF92000000FFFF#64, 0x000092000000FFFF#64]

def ia32eCodeSegment : BitVec 16 := 8#16
def ia32eDataSegment : BitVec 16 := 16#16
def ia32CodeSegment : BitVec 16 := 24#16
def realModeCodeSegment : BitVec 16 := 32#16
def ia32DataSegment : BitVec 16 := 40#16
def realModeDataSegment : BitVec 16 := 48#16

def descriptor (selector : BitVec 16) : BitVec 64 := gdt.getD (selector.toNat / 8) 0#64

/-- the flags `L` and `D` (or `B`) of a descriptor -/
def longFlag (selector : BitVec 16) : Bool := (descriptor selector).getLsbD 53
def bigFlag (selector : BitVec 16) : Bool := (descriptor selector).getLsbD 54

def protection (s : Machine) : Bool := s.cpu.cr0.getLsbD 0

/-- `EFER.LMA`: long mode is enabled, and so are paging and `PAE` -/
def longModeActive (s : Machine) : Bool :=
  s.cpu.cr0.getLsbD 31 && s.cpu.cr4.getLsbD 5 && (s.cpu.msr msrIa32Efer).getLsbD 8

/-- the width of the code.  Real mode keeps the flags of the last descriptors, and the switch to it
goes through code and data of 16 bits -/
def codeBits (s : Machine) : ℕ :=
  if protection s then
    if longModeActive s && longFlag s.cpu.cs then 64 else if bigFlag s.cpu.cs then 32 else 16
  else 16

def stackBits (s : Machine) : ℕ :=
  if codeBits s = 64 then 64 else if protection s && bigFlag s.cpu.ss then 32 else 16

/-! ## registers -/

/-- the low `bits` bits -/
def low (bits : ℕ) (v : BitVec 64) : BitVec 64 :=
  if bits = 16 then v &&& 0xFFFF#64 else if bits = 32 then v &&& 0xFFFFFFFF#64 else v

/-- a register after a write of `bits` bits: one of 32 bits clears the upper half, one of 16 bits leaves
the rest alone -/
def resize (bits : ℕ) (old v : BitVec 64) : BitVec 64 :=
  if bits = 16 then (old &&& 0xFFFFFFFFFFFF0000#64) ||| (v &&& 0xFFFF#64) else low bits v

def putReg (r : Reg) (v : BitVec 64) (s : Machine) : Machine :=
  { s with cpu := { s.cpu with regs := Function.update s.cpu.regs r v } }

/-- `upper` is what the processor makes of the upper half of a register when it leaves 64-bit code -/
def dropUpper (upper : BitVec 32 → BitVec 32) (v : BitVec 64) : BitVec 64 :=
  upper (v.extractLsb' 32 32) ++ v.extractLsb' 0 32

/-! ## the stack -/

def stackPointer (s : Machine) : ℕ := (low (stackBits s) (s.cpu.regs .rsp)).toNat

def moveStack (d : BitVec 64) (s : Machine) : Machine :=
  putReg .rsp (resize (stackBits s) (s.cpu.regs .rsp) (s.cpu.regs .rsp + d)) s

/-- the bytes of a word -/
def wordSize (s : Machine) : ℕ := codeBits s / 8

def pushWord (v : BitVec 64) (s : Machine) : Machine :=
  let t := moveStack (-BitVec.ofNat 64 (wordSize s)) s
  { t with mem := @Mem.store t.mem (stackPointer t) (wordSize s) (v.setWidth (8 * wordSize s)) }

def topWord (s : Machine) : BitVec 64 := (s.mem.load (stackPointer s) (wordSize s)).setWidth 64

def popWord (r : Reg) (s : Machine) : Machine :=
  let t := moveStack (BitVec.ofNat 64 (wordSize s)) s
  putReg r (resize (codeBits s) (t.cpu.regs r) (topWord s)) t

/-- `ret n` -/
def ret (n : ℕ) (s : Machine) : Machine :=
  putReg .rip (topWord s) (moveStack (BitVec.ofNat 64 (wordSize s + n)) s)

def farJump (cs : BitVec 16) (rip : BitVec 64) (s : Machine) : Machine :=
  { s with cpu := { s.cpu with cs := cs, regs := Function.update s.cpu.regs .rip rip } }

/-- `retfq` to code that is not 64-bit code -/
def retfq (upper : BitVec 32 → BitVec 32) (s : Machine) : Machine :=
  let a := stackPointer s
  let t := moveStack 16#64 s
  farJump ((s.mem.load64 (a + 8)).setWidth 16) (s.mem.load64 a)
    { t with cpu := { t.cpu with regs := fun r => dropUpper upper (t.cpu.regs r) } }

/-! ## control registers -/

/-- `mov eax, cr0`, an instruction on `eax`, `mov cr0, eax` -/
def editCr0 (f : BitVec 32 → BitVec 32) (s : Machine) : Machine :=
  let eax := (f (s.cpu.cr0.setWidth 32)).setWidth 64
  putReg .rax eax { s with cpu := { s.cpu with cr0 := eax } }

def editCr4 (f : BitVec 32 → BitVec 32) (s : Machine) : Machine :=
  let eax := (f (s.cpu.cr4.setWidth 32)).setWidth 64
  putReg .rax eax { s with cpu := { s.cpu with cr4 := eax } }

/-- `mov ecx, EFER_MSR`, `rdmsr`, an instruction on `eax`, `wrmsr` -/
def editEfer (f : BitVec 32 → BitVec 32) (s : Machine) : Machine :=
  let eax := f ((s.cpu.msr msrIa32Efer).extractLsb' 0 32)
  let edx := (s.cpu.msr msrIa32Efer).extractLsb' 32 32
  putReg .rax (eax.setWidth 64) (putReg .rdx (edx.setWidth 64) (putReg .rcx (msrIa32Efer.setWidth 64)
    { s with cpu := { s.cpu with msr := Function.update s.cpu.msr msrIa32Efer (edx ++ eax) } }))

/-- the macro `setup_data_segments` -/
def setDataSegments (selector : BitVec 16) (s : Machine) : Machine :=
  putReg .rax (resize 16 (s.cpu.regs .rax) (selector.setWidth 64)) { s with cpu := { s.cpu with
    es := selector, ss := selector, fs := selector, ds := selector, gs := selector } }

/-- `mov eax, base`, `mov cr3, eax` -/
def setCr3 (base : BitVec 64) (s : Machine) : Machine :=
  putReg .rax base { s with cpu := { s.cpu with cr3 := base } }

def lidt (idtr : TableReg) (s : Machine) : Machine := { s with cpu := { s.cpu with idtr := idtr } }

def cli (s : Machine) : Machine :=
  { s with cpu := { s.cpu with rflags := s.cpu.rflags &&& ~~~ 0x200#64 } }

/-! ## a stack in the first 64 KiB -/

section
variable {s : Machine} {S n : ℕ} {v : BitVec 64}

theorem low_small (bits : ℕ) (hS : S < 2 ^ 16) : low bits (BitVec.ofNat 64 S) = BitVec.ofNat 64 S := by
  have h16 : BitVec.ofNat 64 S &&& 0xFFFF#64 = BitVec.ofNat 64 S := by
    apply BitVec.eq_of_toNat_eq
    rw [BitVec.toNat_and, BitVec.toNat_ofNat, BitVec.toNat_ofNat]
    exact (Nat.and_two_pow_sub_one_eq_mod _ 16).trans (by omega)
  have h32 : BitVec.ofNat 64 S &&& 0xFFFFFFFF#64 = BitVec.ofNat 64 S := by
    apply BitVec.eq_of_toNat_eq
    rw [BitVec.toNat_and, BitVec.toNat_ofNat, BitVec.toNat_ofNat]
    exact (Nat.and_two_pow_sub_one_eq_mod _ 32).trans (by omega)
  unfold low
  rw [h16, h32, ite_self, ite_self]

theorem resize_small (bits : ℕ) {T : ℕ} (hS : S < 2 ^ 16) (hT : T < 2 ^ 16) :
    resize bits (BitVec.ofNat 64 S) (BitVec.ofNat 64 T) = BitVec.ofNat 64 T := by
  have hmask : ∀ i < 16, (0xFFFFFFFFFFFF0000#64).getLsbD i = false := by decide
  have hupper : BitVec.ofNat 64 S &&& 0xFFFFFFFFFFFF0000#64 = 0#64 := by
    apply BitVec.eq_of_getLsbD_eq
    intro i hi
    rw [BitVec.getLsbD_and, BitVec.getLsbD_ofNat, BitVec.getLsbD_zero]
    by_cases h : i < 16
    · rw [hmask i h, Bool.and_false]
    · have hbit : S.testBit i = false := Nat.testBit_lt_two_pow
        (lt_of_lt_of_le hS (Nat.pow_le_pow_right (by omega) (by omega)))
      rw [hbit, Bool.and_false, Bool.false_and]
  unfold resize
  split
  · next h =>
    have hlow := low_small 16 hT
    rw [low, if_pos rfl] at hlow
    rw [hupper, hlow, BitVec.zero_or]
  · exact low_small bits hT

theorem stackPointer_low (h : s.cpu.regs .rsp = BitVec.ofNat 64 S) (hS : S < 2 ^ 16) :
    stackPointer s = S := by
  rw [stackPointer, h, low_small _ hS, BitVec.toNat_ofNat]
  omega

theorem moveStack_down (h : s.cpu.regs .rsp = BitVec.ofNat 64 S) (hS : S < 2 ^ 16) (hn : n ≤ S) :
    moveStack (-BitVec.ofNat 64 n) s = putReg .rsp (BitVec.ofNat 64 (S - n)) s := by
  have hsub : BitVec.ofNat 64 S + -BitVec.ofNat 64 n = BitVec.ofNat 64 (S - n) := by
    apply BitVec.eq_of_toNat_eq
    rw [BitVec.toNat_add, BitVec.toNat_neg, BitVec.toNat_ofNat, BitVec.toNat_ofNat,
      BitVec.toNat_ofNat]
    omega
  rw [moveStack, h, hsub, resize_small _ hS (by omega)]

theorem moveStack_up (h : s.cpu.regs .rsp = BitVec.ofNat 64 S) (hS : S + n < 2 ^ 16) :
    moveStack (BitVec.ofNat 64 n) s = putReg .rsp (BitVec.ofNat 64 (S + n)) s := by
  rw [moveStack, h, ← BitVec.ofNat_add, resize_small _ (by omega) hS]

/-- **a push on the low stack** -/
theorem pushWord_low (hw : wordSize s = n) (h : s.cpu.regs .rsp = BitVec.ofNat 64 S)
    (hS : S < 2 ^ 16) (hn : n ≤ S) : pushWord v s
      = { putReg .rsp (BitVec.ofNat 64 (S - n)) s with
          mem := @Mem.store s.mem (S - n) n (v.setWidth (8 * n)) } := by
  subst hw
  have hsp : stackPointer (putReg .rsp (BitVec.ofNat 64 (S - wordSize s)) s) = S - wordSize s :=
    stackPointer_low (by simp [putReg]) (by omega)
  rw [pushWord, moveStack_down h hS hn]
  simp only [hsp]
  rfl

theorem topWord_low (hw : wordSize s = n) (h : s.cpu.regs .rsp = BitVec.ofNat 64 S)
    (hS : S < 2 ^ 16) : topWord s = (s.mem.load S n).setWidth 64 := by
  subst hw
  rw [topWord, stackPointer_low h hS]

theorem popWord_low {r : Reg} (hw : wordSize s = n) (h : s.cpu.regs .rsp = BitVec.ofNat 64 S)
    (hS : S + n < 2 ^ 16) (hr : r ≠ .rsp) : popWord r s
      = putReg r (resize (codeBits s) (s.cpu.regs r) ((s.mem.load S n).setWidth 64))
        (putReg .rsp (BitVec.ofNat 64 (S + n)) s) := by
  rw [popWord, hw, moveStack_up h hS, topWord_low hw h (by omega)]
  simp [putReg, hr]

theorem ret_low {k : ℕ} (hw : wordSize s = n) (h : s.cpu.regs .rsp = BitVec.ofNat 64 S)
    (hS : S + (n + k) < 2 ^ 16) : ret k s
      = putReg .rip ((s.mem.load S n).setWidth 64)
        (putReg .rsp (BitVec.ofNat 64 (S + (n + k))) s) := by
  rw [ret, hw, moveStack_up h hS, topWord_low hw h (by omega)]

end

/-! ## a stack of 64-bit code -/

section
variable {s : Machine} {v : BitVec 64}

theorem stackPointer_64 (h : codeBits s = 64) : stackPointer s = (s.cpu.regs .rsp).toNat := by
  rw [stackPointer, stackBits, if_pos h]
  rfl

theorem moveStack_64 (h : codeBits s = 64) (d : BitVec 64) :
    moveStack d s = putReg .rsp (s.cpu.regs .rsp + d) s := by
  rw [moveStack, stackBits, if_pos h]
  rfl

theorem wordSize_64 (h : codeBits s = 64) : wordSize s = 8 := by rw [wordSize, h]

theorem pushWord_64 (h : codeBits s = 64) : pushWord v s
    = { putReg .rsp (s.cpu.regs .rsp - 8#64) s with
        mem := s.mem.store64 (s.cpu.regs .rsp - 8#64).toNat v } := by
  have hpush : ∀ n, wordSize s = n → pushWord v s
      = { putReg .rsp (s.cpu.regs .rsp - BitVec.ofNat 64 n) s with
          mem := @Mem.store s.mem (s.cpu.regs .rsp - BitVec.ofNat 64 n).toNat n (v.setWidth (8 * n)) } := by
    intro n hn
    subst hn
    have hsp : stackPointer (putReg .rsp (s.cpu.regs .rsp - BitVec.ofNat 64 (wordSize s)) s)
        = (s.cpu.regs .rsp - BitVec.ofNat 64 (wordSize s)).toNat := by
      have hbits : codeBits (putReg .rsp (s.cpu.regs .rsp - BitVec.ofNat 64 (wordSize s)) s) = 64 := h
      rw [stackPointer_64 hbits]
      simp [putReg]
    rw [pushWord, moveStack_64 h, ← BitVec.sub_eq_add_neg]
    simp only [hsp]
    rfl
  have hv : v.setWidth (8 * 8) = v := BitVec.setWidth_eq v
  rw [hpush 8 (wordSize_64 h), Mem.store64, hv]

theorem topWord_64 (h : codeBits s = 64) : topWord s = s.mem.load64 (s.cpu.regs .rsp).toNat := by
  have htop : ∀ n, wordSize s = n →
      topWord s = (s.mem.load (s.cpu.regs .rsp).toNat n).setWidth 64 := by
    intro n hn
    subst hn
    rw [topWord, stackPointer_64 h]
  exact (htop 8 (wordSize_64 h)).trans (BitVec.setWidth_eq _)

theorem popWord_64 {r : Reg} (h : codeBits s = 64) : popWord r s
    = putReg r (s.mem.load64 (s.cpu.regs .rsp).toNat) (putReg .rsp (s.cpu.regs .rsp + 8#64) s) := by
  rw [popWord, wordSize_64 h, moveStack_64 h, topWord_64 h, h]
  rfl

theorem ret_64 (h : codeBits s = 64) : ret 0 s
    = putReg .rip (s.mem.load64 (s.cpu.regs .rsp).toNat) (putReg .rsp (s.cpu.regs .rsp + 8#64) s) := by
  rw [ret, wordSize_64 h, moveStack_64 h, topWord_64 h]

end

end HyperC.Bios
