import HyperC.Bios.Switches
import HyperC.Boot.PageTables

/-!
# `entrypoint.asm`: from the loader to 64-bit code

The loader enters `_start` in protected mode, on a stack of its own.  A segment register stands for
what the processor has cached in it, so the loader's segments are told by their flags.

* `StartCode`             where the labels are, and what the table routines leave below the stack;
* `protectedToLong`, `start`   the code, up to the first instruction of `initialize_host`;
* `pushed_32`, `popped_32`   the stack of 32-bit code;
* `Multiboot`             the state in which the loader enters;
* `start_reaches_host`    from every such state `initialize_host` is entered in long mode, on its own
                          stack, in identity-mapped memory that is otherwise as the loader left it.
-/

namespace HyperC.Boot
open Code Bios

def higherMemoryStackTop : ℕ := 0x120000

/-- `GDT_SIZE` -/
def gdtSize : BitVec 16 := BitVec.ofNat 16 (8 * gdt.length - 1)

/-- the code of the entry.  `dirty` is what `setup_pml4_map` and `_create_tables` leave in the flags and
in the 44 bytes that they push at most -/
structure StartCode where
  behindStart : BitVec 64
  longMode : BitVec 64
  behindInitialize : BitVec 64
  initializeHost : BitVec 64
  gdtStart : BitVec 64
  dirty : Machine → Machine
  behindStart_lt : behindStart.toNat < 2 ^ 32

def lgdt (gdtr : TableReg) (s : Machine) : Machine := { s with cpu := { s.cpu with gdtr := gdtr } }

/-- `call setup_pml4_map`: the tables, the registers of its last call of `_create_tables`, and what has
been pushed -/
def StartCode.callSetup (img : StartCode) (s : Machine) : Machine :=
  let esp := stackPointer s
  { s with
    mem := fun x => if esp - 44 ≤ x ∧ x < esp then (img.dirty s).mem x else setupPml4Map memorySize s.mem x
    cpu := { s.cpu with
      regs := fun r => match r with
        | .rdi => 0#64
        | .rbx => (ia32ePagingBase + 2#32 * pageLength).setWidth 64
        | .rdx => (pageSize ||| pageWrite ||| pagePresent).setWidth 64
        | .rcx => BitVec.ofNat 64 (memorySize <<< 9)
        | .rax => largePageSize.setWidth 64
        | r => s.cpu.regs r
      rflags := (img.dirty s).cpu.rflags } }

namespace StartCode
variable (img : StartCode)

def protectedToLong : Code Path Unit := do
  instr (popWord .rsi)
  instr (lgdt ⟨gdtSize, (img.gdtStart.setWidth 32).setWidth 64⟩)
  instr img.callSetup
  instr (editCr0 fun eax => eax &&& ~~~ pagingFlag)
  instr (editCr4 fun eax => eax ||| paeFlag)
  instr (setCr3 Bios.ia32ePagingBase)
  instr (editEfer fun eax => eax ||| longModeFlag)
  instr (editCr0 fun eax => eax ||| pagingFlag)
  instr (farJump ia32eCodeSegment img.longMode)
  continueAt img.longMode 64
  instr (setDataSegments ia32eDataSegment)
  instr (lgdt ⟨gdtSize, img.gdtStart⟩)
  -- the immediate `0xFFFFFFFF` is sign-extended
  instr fun s => putReg .rsi (s.cpu.regs .rsi &&& 0xFFFFFFFFFFFFFFFF#64) s
  instr fun s => pushWord (s.cpu.regs .rsi) s
  instr (ret 0)

def start : Code Path Unit := do
  call img.behindStart 64 img.protectedToLong
  instr (putReg .rsp (BitVec.ofNat 64 higherMemoryStackTop))
  instr (pushWord img.behindInitialize)
  instr (putReg .rip img.initializeHost)

end StartCode

/-! ## the stack of 32-bit code -/

section
variable {s : Machine} {S : ℕ} {v : BitVec 64}

theorem low_32 (hS : S < 2 ^ 32) : low 32 (BitVec.ofNat 64 S) = BitVec.ofNat 64 S := by
  apply BitVec.eq_of_toNat_eq
  rw [low, if_neg (by decide), if_pos rfl, BitVec.toNat_and, BitVec.toNat_ofNat]
  exact (Nat.and_two_pow_sub_one_eq_mod _ 32).trans (by omega)

/-- 32-bit code on a 32-bit stack -/
structure Flat32 (s : Machine) : Prop where
  protection : protection s = true
  long : longFlag s.cpu.cs = false
  code : bigFlag s.cpu.cs = true
  stack : bigFlag s.cpu.ss = true

theorem Flat32.codeBits (h : Flat32 s) : codeBits s = 32 := by
  rw [Bios.codeBits, h.protection, h.long, h.code, Bool.and_false]
  rfl

theorem Flat32.stackBits (h : Flat32 s) : stackBits s = 32 := by
  rw [Bios.stackBits, h.codeBits, h.protection, h.stack]
  rfl

theorem Flat32.wordSize (h : Flat32 s) : wordSize s = 4 := by rw [Bios.wordSize, h.codeBits]

theorem moveStack_32 (h : Flat32 s) {d : BitVec 64} {T : ℕ} (hT : T < 2 ^ 32)
    (hd : s.cpu.regs .rsp + d = BitVec.ofNat 64 T) :
    moveStack d s = putReg .rsp (BitVec.ofNat 64 T) s := by
  rw [moveStack, h.stackBits, hd, resize, if_neg (by decide), low_32 hT]

theorem stackPointer_32 (h : Flat32 s) (hsp : s.cpu.regs .rsp = BitVec.ofNat 64 S) (hS : S < 2 ^ 32) :
    stackPointer s = S := by
  rw [stackPointer, h.stackBits, hsp, low_32 hS, BitVec.toNat_ofNat]
  omega

theorem Flat32.of_cpu (h : Flat32 s) {t : Machine} (hcpu : t.cpu = { s.cpu with regs := t.cpu.regs }) :
    Flat32 t where
  protection := by
    rw [Bios.protection, hcpu]
    exact h.protection
  long := by
    rw [hcpu]
    exact h.long
  code := by
    rw [hcpu]
    exact h.code
  stack := by
    rw [hcpu]
    exact h.stack

theorem Flat32.of_gdtr (h : Flat32 s) (gdtr : TableReg) : Flat32 (lgdt gdtr s) :=
  ⟨h.protection, h.long, h.code, h.stack⟩

theorem pushed_32 (h : Flat32 s) (hsp : s.cpu.regs .rsp = BitVec.ofNat 64 S) (h4 : 4 ≤ S)
    (hS : S < 2 ^ 32) : Pushed 4 S v s (pushWord v s) := by
  have hdown : s.cpu.regs .rsp + -BitVec.ofNat 64 4 = BitVec.ofNat 64 (S - 4) := by
    apply BitVec.eq_of_toNat_eq
    rw [hsp, BitVec.toNat_add, BitVec.toNat_neg, BitVec.toNat_ofNat, BitVec.toNat_ofNat,
      BitVec.toNat_ofNat]
    omega
  have hmove : moveStack (-BitVec.ofNat 64 4) s = putReg .rsp (BitVec.ofNat 64 (S - 4)) s :=
    moveStack_32 h (by omega) hdown
  have hpointer : stackPointer (putReg .rsp (BitVec.ofNat 64 (S - 4)) s) = S - 4 :=
    stackPointer_32 (h.of_cpu rfl) (by simp [putReg]) (by omega)
  have hpush : pushWord v s = { putReg .rsp (BitVec.ofNat 64 (S - 4)) s with
      mem := @Mem.store s.mem (S - 4) 4 (v.setWidth (8 * 4)) } := by
    rw [pushWord, h.wordSize, hmove]
    simp only [hpointer]
    rfl
  rw [hpush]
  exact ⟨by simp [putReg], fun r hr => by simp [putReg, hr], rfl, rfl⟩

theorem popped_32 {r : Reg} {T : ℕ} (h : Flat32 s) (hsp : s.cpu.regs .rsp = BitVec.ofNat 64 T)
    (hT : T + 4 < 2 ^ 32) (hr : r ≠ .rsp) : Popped 4 r T s (popWord r s) := by
  have hup : s.cpu.regs .rsp + BitVec.ofNat 64 4 = BitVec.ofNat 64 (T + 4) := by
    rw [hsp, ← BitVec.ofNat_add]
  have hmove : moveStack (BitVec.ofNat 64 4) s = putReg .rsp (BitVec.ofNat 64 (T + 4)) s :=
    moveStack_32 h hT hup
  have htop : topWord s = (s.mem.load T 4).setWidth 64 := by
    rw [topWord, h.wordSize, stackPointer_32 h hsp (by omega)]
  have hpop : popWord r s = putReg r (resize 32 (s.cpu.regs r) ((s.mem.load T 4).setWidth 64))
      (putReg .rsp (BitVec.ofNat 64 (T + 4)) s) := by
    rw [popWord, h.wordSize, hmove, htop, h.codeBits]
    simp [putReg, hr]
  rw [hpop]
  exact ⟨by simp [putReg, hr.symm], by simp [putReg], fun q hp hq => by simp [putReg, hp, hq], rfl, rfl⟩

/-- a return address that is pushed in 64-bit code and returned to -/
theorem pushWord_ret_64 (hbits : codeBits s = 64) (hsp : s.cpu.regs .rsp = BitVec.ofNat 64 S)
    (h8 : 8 ≤ S) (hS : S < 2 ^ 32) : ∃ t, ret 0 (pushWord v s) = t ∧ t.cpu.regs .rip = v ∧
      t.cpu = { s.cpu with regs := t.cpu.regs } ∧ ∀ x, x < S - 8 ∨ S ≤ x → t.mem x = s.mem x := by
  have hdown : s.cpu.regs .rsp - 8#64 = BitVec.ofNat 64 (S - 8) := by
    apply BitVec.eq_of_toNat_eq
    rw [hsp, BitVec.toNat_sub, BitVec.toNat_ofNat, BitVec.toNat_ofNat, BitVec.toNat_ofNat]
    omega
  have haddr : (BitVec.ofNat 64 (S - 8)).toNat = S - 8 := by
    rw [BitVec.toNat_ofNat]
    omega
  have hpushed : Pushed 8 S v s (pushWord v s) := by
    rw [pushWord_64 hbits, hdown, haddr]
    exact ⟨by simp [putReg], fun r hr => by simp [putReg, hr],
      congrArg (Mem.store s.mem (S - 8)) (BitVec.setWidth_eq v).symm, rfl⟩
  have hcpu : (putReg .rip v (putReg .rsp (BitVec.ofNat 64 (S - 8) + 8#64) (pushWord v s))).cpu
      = { s.cpu with regs :=
          (putReg .rip v (putReg .rsp (BitVec.ofNat 64 (S - 8) + 8#64) (pushWord v s))).cpu.regs } := by
    show ({ (pushWord v s).cpu with regs := _ } : Cpu) = _
    rw [hpushed.cpu]
    rfl
  rw [ret_64 (hpushed.codeBits.trans hbits), hpushed.rsp, haddr, hpushed.load64]
  exact ⟨_, rfl, by simp [putReg], hcpu, hpushed.outside h8⟩

end

/-! ## from the loader to `initialize_host` -/

/-- the loader has entered `_start` with its stack at `S`: protected mode without paging, flat segments
of 32 bits, and a stack of which 44 bytes are no part of the image, which is linked to 1 MiB, or of the
page tables behind it -/
structure Multiboot (S : ℕ) (s : Machine) : Prop extends Flat32 s where
  paging : s.cpu.cr0.getLsbD 31 = false
  rsp : s.cpu.regs .rsp = BitVec.ofNat 64 S
  deep : 44 ≤ S
  below : S < 2 ^ 32
  apart : S ≤ 0x100000 ∨ 0x116000 + 44 ≤ S

theorem Multiboot.tables {S : ℕ} {s : Machine} (h : Multiboot S s) : S ≤ 0x110000 ∨ 0x116000 + 44 ≤ S := by
  have hapart := h.apart
  omega

/-- 64-bit code on the segments and the tables of the boot -/
structure Flat64 (img : StartCode) (t : Machine) : Prop where
  bits : codeBits t = 64
  cs : t.cpu.cs = ia32eCodeSegment
  data : ∀ r ∈ [t.cpu.ds, t.cpu.es, t.cpu.fs, t.cpu.gs, t.cpu.ss], r = ia32eDataSegment
  gdtr : t.cpu.gdtr = ⟨gdtSize, img.gdtStart⟩
  cr3 : t.cpu.cr3 = Bios.ia32ePagingBase

/-- the tables are there; the rest of memory is as before, but for what has been pushed below `S`, and so
are the MSRs but for `EFER` -/
structure Mapped (S : ℕ) (s t : Machine) : Prop where
  tables : BootTables memorySize t.mem
  msr : ∀ msr, msr ≠ msrIa32Efer → t.cpu.msr msr = s.cpu.msr msr
  outside : ∀ x, x < 0x110000 ∨ 0x116000 ≤ x → x < S - 44 ∨ S ≤ x → t.mem x = s.mem x

/-- `initialize_host` has been entered, from the state `s` of the loader -/
structure Entered (img : StartCode) (S : ℕ) (s t : Machine) : Prop extends Flat64 img t where
  rip : t.cpu.regs .rip = img.initializeHost
  rsp : t.cpu.regs .rsp = BitVec.ofNat 64 (higherMemoryStackTop - 8)
  returnAddress : t.mem.load64 (higherMemoryStackTop - 8) = img.behindInitialize
  identity : ∀ mode, ∀ la < 2 ^ 32, MapsToItself mode t.mem la
  msr : ∀ msr, msr ≠ msrIa32Efer → t.cpu.msr msr = s.cpu.msr msr
  outside : ∀ x, x < 0x110000 ∨ 0x116000 ≤ x → x < S - 44 ∨ S ≤ x →
    x < higherMemoryStackTop - 8 ∨ higherMemoryStackTop ≤ x → t.mem x = s.mem x

section
variable {img : StartCode} {s t : Machine} {S : ℕ} {es : List Machine}

theorem mapsToItself_of_tables {m : Mem} (h : BootTables memorySize m) (mode : Paging.Mode) {la : ℕ}
    (hla : la < 2 ^ 32) : MapsToItself mode m la := by
  have hframe : Paging.frame (Boot.ia32ePagingBase.setWidth 64) = 0x110000 := by decide
  refine ⟨bootAttrs, ?_, rfl⟩
  rw [Paging.linearWalk, hframe]
  exact walk_boot h (by decide) (fun _ _ _ => rfl) (lt_of_lt_of_le hla (by decide))

theorem Flat64.of_cpu (h : Flat64 img s) (hcpu : t.cpu = { s.cpu with regs := t.cpu.regs }) :
    Flat64 img t where
  bits := by
    have hbits : codeBits t = codeBits s := by
      unfold codeBits longModeActive protection
      rw [hcpu]
    exact hbits.trans h.bits
  cs := by
    rw [hcpu]
    exact h.cs
  data := by
    rw [hcpu]
    exact h.data
  gdtr := by
    rw [hcpu]
    exact h.gdtr
  cr3 := by
    rw [hcpu]
    exact h.cr3

variable (img) in
theorem mapped_callSetup (hS : stackPointer s = S) (hapart : S ≤ 0x110000 ∨ 0x116000 + 44 ≤ S) :
    Mapped S s (img.callSetup s) := by
  have hout : ∀ x, x < S - 44 ∨ S ≤ x →
      (img.callSetup s).mem x = setupPml4Map memorySize s.mem x := by
    intro x hx
    show (if stackPointer s - 44 ≤ x ∧ x < stackPointer s then (img.dirty s).mem x
      else setupPml4Map memorySize s.mem x) = _
    rw [hS, if_neg (by omega)]
  have h4 : memorySize = 4 := rfl
  refine ⟨?_, fun _ _ => rfl, fun x htables hstack => ?_⟩
  · exact bootTables_congr (by decide) (bootTables_setup (by decide) (by decide) s.mem)
      fun x hlo hhi => hout x (by omega)
  · rw [hout x hstack]
    exact setupPml4Map_outside (by decide) (by decide) s.mem x htables

/-- bytes of the stack have been written -/
theorem Mapped.pushed (h : Mapped S s t) {u : Machine} (hapart : S ≤ 0x110000 ∨ 0x116000 + 44 ≤ S)
    (hcpu : u.cpu.msr = t.cpu.msr) (hu : ∀ x, x < S - 44 ∨ S ≤ x → u.mem x = t.mem x) :
    Mapped S s u := by
  have h4 : memorySize = 4 := rfl
  refine ⟨bootTables_congr (by decide) h.tables fun x hlo hhi => hu x (by omega), fun msr hmsr => ?_,
    fun x htables hstack => ?_⟩
  · rw [hcpu, h.msr msr hmsr]
  · rw [hu x hstack, h.outside x htables hstack]

variable (img) in
/-- the return address is taken off the loader's stack -/
theorem popReturn (h : Multiboot S s) : ∃ t, popWord .rsi (pushWord img.behindStart s) = t ∧
    t.cpu = { s.cpu with regs := t.cpu.regs } ∧ t.cpu.regs .rsp = BitVec.ofNat 64 S ∧
    t.cpu.regs .rsi = img.behindStart ∧ ∀ x, x < S - 4 ∨ S ≤ x → t.mem x = s.mem x := by
  have hdeep := h.deep
  have hbelow := h.below
  have hnext : img.behindStart.toNat < 2 ^ (8 * 4) := img.behindStart_lt
  have h₁ := pushed_32 (v := img.behindStart) h.toFlat32 h.rsp (by omega) hbelow
  generalize pushWord img.behindStart s = s₁ at h₁ ⊢
  have h₂ := popped_32 (r := .rsi) (h.toFlat32.of_cpu h₁.cpu) h₁.rsp (by omega) (by decide)
  have hlow := low_32 hnext
  rw [BitVec.ofNat_toNat, BitVec.setWidth_eq] at hlow
  refine ⟨_, rfl, ?_, ?_, ?_, fun x hx => ?_⟩
  · rw [h₂.cpu, h₁.cpu]
  · rw [h₂.rsp, Nat.sub_add_cancel (by omega)]
  · rw [h₂.word, h₁.top le_rfl hnext]
    exact hlow
  · rw [h₂.mem, h₁.outside (by omega) x hx]

variable (img) in
/-- the tables are built on the loader's stack, in protected mode still -/
theorem callSetup_mapped (hflat : Flat32 t) (hsp : t.cpu.regs .rsp = BitVec.ofNat 64 S)
    (hbelow : S < 2 ^ 32) (hapart : S ≤ 0x110000 ∨ 0x116000 + 44 ≤ S) (hmsr : t.cpu.msr = s.cpu.msr)
    (hout : ∀ x, x < S - 4 ∨ S ≤ x → t.mem x = s.mem x) : ∃ u, img.callSetup t = u ∧
      protection u = true ∧ u.cpu.regs .rsp = BitVec.ofNat 64 S ∧
      u.cpu.regs .rsi = t.cpu.regs .rsi ∧ Mapped S s u := by
  have hmapped := mapped_callSetup img (stackPointer_32 hflat hsp hbelow) hapart
  refine ⟨_, rfl, hflat.protection, hsp, rfl, hmapped.tables, fun msr hne => ?_,
    fun x htables hstack => ?_⟩
  · rw [hmapped.msr msr hne, hmsr]
  · rw [hmapped.outside x htables hstack, hout x (by omega)]

variable (img) in
/-- the way into long mode, the data segments and the last descriptor table included -/
theorem longMode_flat (hprot : protection s = true) : ∃ t u,
    farJump ia32eCodeSegment img.longMode (editCr0 (fun eax => eax ||| pagingFlag)
      (editEfer (fun eax => eax ||| longModeFlag) (setCr3 Bios.ia32ePagingBase
        (editCr4 (fun eax => eax ||| paeFlag) (editCr0 (fun eax => eax &&& ~~~ pagingFlag) s))))) = t ∧
      t.cpu.regs .rip = img.longMode ∧ codeBits t = 64 ∧
      lgdt ⟨gdtSize, img.gdtStart⟩ (setDataSegments ia32eDataSegment t) = u ∧ Quiet s u ∧
      Flat64 img u ∧ ∀ msr, msr ≠ msrIa32Efer → u.cpu.msr msr = s.cpu.msr msr := by
  obtain ⟨t, ht, hquiet, hrip, hbits, hbits'⟩ := longMode_quiet hprot img.longMode
  have hquiet' := hquiet.trans (quiet_setDataSegments ia32eDataSegment)
  refine ⟨t, _, ht, hrip, hbits, rfl, ⟨hquiet'.mem, hquiet'.regs⟩,
    ⟨hbits', ?_, by simp [lgdt, setDataSegments, putReg], rfl, ?_⟩, fun msr hmsr => ?_⟩
  · rw [← ht]
    rfl
  · rw [← ht]
    rfl
  · rw [← ht]
    show Function.update s.cpu.msr msrIa32Efer _ msr = _
    exact Function.update_of_ne hmsr _ _

variable (img es) in
/-- **`protected_to_long` comes back to `_start` in long mode** -/
theorem call_protectedToLong (h : Multiboot S s) : ∃ t,
    (call img.behindStart 64 img.protectedToLong).run ⟨s, es⟩ = .ret () ⟨t, es⟩ ∧ Flat64 img t ∧
      Mapped S s t := by
  have hdeep := h.deep
  unfold call StartCode.protectedToLong
  simp only [bind_assoc, run_instr_bind]
  obtain ⟨s₁, hs₁, hcpu₁, hsp₁, hsi₁, hout₁⟩ := popReturn img h
  rw [hs₁]
  have hflat₁ : Flat32 s₁ := h.toFlat32.of_cpu hcpu₁
  have hmsr₁ : s₁.cpu.msr = s.cpu.msr := by rw [hcpu₁]
  obtain ⟨s₂, hs₂, hprot₂, hsp₂, hsi₂, hmapped₂⟩ := callSetup_mapped img
    (t := lgdt ⟨gdtSize, (img.gdtStart.setWidth 32).setWidth 64⟩ s₁) (hflat₁.of_gdtr _) hsp₁ h.below
    h.tables hmsr₁ hout₁
  rw [hs₂]
  obtain ⟨u, v, hu, hurip, hubits, hv, hquiet, hflat, hmsr⟩ := longMode_flat img hprot₂
  rw [hu, run_continueAt_bind hurip hubits]
  simp only [run_instr_bind]
  rw [hv]
  have hsi : v.cpu.regs .rsi = img.behindStart :=
    (hquiet.regs .rsi (by decide)).trans (hsi₂.trans hsi₁)
  have hsp : v.cpu.regs .rsp = BitVec.ofNat 64 S := (hquiet.regs .rsp (by decide)).trans hsp₂
  -- the return address goes back to the stack, as a word of eight bytes
  have hones : img.behindStart &&& 0xFFFFFFFFFFFFFFFF#64 = img.behindStart := BitVec.and_allOnes
  have hsi' : (putReg .rsi img.behindStart v).cpu.regs .rsi = img.behindStart := by simp [putReg]
  have hsp' : (putReg .rsi img.behindStart v).cpu.regs .rsp = BitVec.ofNat 64 S := by
    simpa [putReg] using hsp
  rw [hsi, hones, hsi']
  obtain ⟨t, ht, hrip, hcpu, hout⟩ := pushWord_ret_64 (s := putReg .rsi img.behindStart v)
    (v := img.behindStart) hflat.bits hsp' (by omega) h.below
  rw [ht]
  have hflat' : Flat64 img t := hflat.of_cpu hcpu
  have hmapped : Mapped S s v := ⟨bootTables_congr (by decide) hmapped₂.tables
    fun x _ _ => congrFun hquiet.mem x, fun msr hne => (hmsr msr hne).trans (hmapped₂.msr msr hne),
    fun x htables hstack => (congrFun hquiet.mem x).trans (hmapped₂.outside x htables hstack)⟩
  refine ⟨t, run_continueAt hrip hflat'.bits, hflat',
    hmapped.pushed h.tables ?_ fun x hx => hout x (by omega)⟩
  rw [hcpu]
  rfl

/-- **from the loader to `initialize_host`** -/
theorem start_reaches_host (img : StartCode) (s : Machine) (S : ℕ) (es : List Machine)
    (h : Multiboot S s) : ∃ t, img.start.run ⟨s, es⟩ = .ret () ⟨t, es⟩ ∧ Entered img S s t := by
  obtain ⟨t, hrun, hflat, hmapped⟩ := call_protectedToLong img es h
  unfold StartCode.start
  rw [bind_of_ret hrun]
  simp only [run_instr_bind, run_instr]
  have hbits : codeBits (putReg .rsp (BitVec.ofNat 64 higherMemoryStackTop) t) = 64 := hflat.bits
  have hdown : (putReg .rsp (BitVec.ofNat 64 higherMemoryStackTop) t).cpu.regs .rsp - 8#64
      = BitVec.ofNat 64 (higherMemoryStackTop - 8) := by
    simp only [putReg, Function.update_self]
    decide
  have haddr : (BitVec.ofNat 64 (higherMemoryStackTop - 8)).toNat = higherMemoryStackTop - 8 := by
    decide
  rw [pushWord_64 hbits, hdown, haddr]
  have htop : higherMemoryStackTop = 0x120000 := rfl
  have hstored : ∀ x, x < higherMemoryStackTop - 8 ∨ higherMemoryStackTop ≤ x →
      (t.mem.store64 (higherMemoryStackTop - 8) img.behindInitialize) x = t.mem x :=
    fun x hx => Mem.store64_outside _ _ _ x (by omega)
  have htables : BootTables memorySize
      (t.mem.store64 (higherMemoryStackTop - 8) img.behindInitialize) :=
    bootTables_congr (by decide) hmapped.tables fun x hlo hhi => hstored x <| by
      have h4 : memorySize = 4 := rfl
      omega
  refine ⟨_, rfl, hflat.of_cpu rfl, by simp [putReg], by simp [putReg],
    Mem.load64_store64_same _ _ _, fun mode la hla => ?_, hmapped.msr, fun x hx hstack hhost => ?_⟩
  · exact mapsToItself_of_tables htables mode hla
  · exact (hstored x hhost).trans (hmapped.outside x hx hstack)

/-- a program whose labels are next to each other, above 1 MiB -/
def sampleStart : StartCode :=
  ⟨0x100005#64, 0x100040#64, 0x100010#64, 0x100800#64, 0x100100#64, id, by decide⟩

/-- a loader that keeps its stack below the boot sector -/
def sampleLoader : Machine := { (default : Machine) with
  cpu := { (default : Cpu) with
    regs := Function.update (fun _ => 0#64) .rsp 0x7000#64
    cr0 := 1#64
    cs := ia32CodeSegment
    ss := ia32DataSegment } }

theorem multiboot_sample : Multiboot 0x7000 sampleLoader :=
  ⟨⟨by decide, by decide, by decide, by decide⟩, by decide, by decide, by decide, by decide,
    Or.inl (by decide)⟩

theorem start_reaches_host_sample : ∃ t, sampleStart.start.run ⟨sampleLoader, []⟩ = .ret () ⟨t, []⟩ ∧
    Entered sampleStart 0x7000 sampleLoader t :=
  start_reaches_host sampleStart sampleLoader 0x7000 [] multiboot_sample

end

end HyperC.Boot
