import HyperC.Bios.Switches

/-!
# `real_mode_callback` restores its caller

* `Called`, `Entered`    the state before the call, and the one in which the callback is entered;
* `OnStack`              the bytes that the stack traffic writes: 32 of them below
                         `LOWER_MEMORY_STACK_TOP`, and the caller's saved `rbp`;
* `RestoresCaller`       every return lands behind its call, the callback is entered once, and the caller
                         gets its registers back;
* `LeavesCaller`         what a callback has to leave alone for that: `sp` and `bp` are halves of
                         registers whose other halves count, and the return addresses of the code of 64
                         bits lie above the callback's own.

The segments of the code and of the stack are zero in real mode, so `sp` and `ip` are addresses, as long
as the callback leaves `cs` and `ss` alone.
-/

namespace HyperC.Bios
open Code

/-- `rbp` is saved below `rsp` -/
def OnStack (s : Machine) (x : ℕ) : Prop :=
  (lowerMemoryStackTop - 32 ≤ x ∧ x < lowerMemoryStackTop) ∨
    ((s.cpu.regs .rsp).toNat - 8 ≤ x ∧ x < (s.cpu.regs .rsp).toNat)

/-- `call real_mode_callback` has been executed, with `rdi` in the code that is copied -/
structure Called (img : RealModeCode) (s : Machine) : Prop where
  bits : codeBits s = 64
  rsp_lt : (s.cpu.regs .rsp).toNat < 2 ^ 32
  rbp_lt : (s.cpu.regs .rbp).toNat < 2 ^ 32
  return_lt : (s.mem.load64 (s.cpu.regs .rsp).toNat).toNat < 2 ^ 32
  le_rdi : img.realModeStart ≤ (s.cpu.regs .rdi).toNat
  rdi_lt : (s.cpu.regs .rdi).toNat < img.realModeStart + img.size

/-- the callback is entered at its relocated address, in real mode -/
structure Entered (img : RealModeCode) (s c : Machine) : Prop where
  rip : c.cpu.regs .rip
    = BitVec.ofNat 64 ((s.cpu.regs .rdi).toNat - img.realModeStart + realModeBaseAddress)
  rsp : c.cpu.regs .rsp = BitVec.ofNat 64 (lowerMemoryStackTop - 10)
  rbp : c.cpu.regs .rbp = s.cpu.regs .rsp - 8#64
  real : protection c = false
  mem : ∀ x, ¬ OnStack s x → c.mem x = s.mem x

/-- the caller goes on in 64-bit code, with the registers of its call -/
structure Restored (s t : Machine) : Prop where
  bits : codeBits t = 64
  rip : t.cpu.regs .rip = s.mem.load64 (s.cpu.regs .rsp).toNat
  rsp : t.cpu.regs .rsp = s.cpu.regs .rsp + 8#64
  rbp : t.cpu.regs .rbp = s.cpu.regs .rbp

def RestoresCaller (img : RealModeCode) (cb : Callback) (s : Machine) : Prop :=
  ∃ c t, (img.realModeCallback cb).run ⟨s, []⟩ = .ret () ⟨t, [c]⟩ ∧ Entered img s c ∧
    Restored s t ∧ ∀ x, ¬ OnStack s x → t.mem x = (cb c).mem x

/-- the callback ends with a near `ret`, in real mode and on the same segments, and preserves `sp` and
`bp` -/
structure PreservesSpBp (cb : Callback) (c : Machine) : Prop where
  real : protection (cb c) = false
  cs : (cb c).cpu.cs = c.cpu.cs
  ss : (cb c).cpu.ss = c.cpu.ss
  sp : low 16 ((cb c).cpu.regs .rsp) = low 16 (c.cpu.regs .rsp)
  bp : low 16 ((cb c).cpu.regs .rbp) = low 16 (c.cpu.regs .rbp)
  returnAddress : ∀ x, lowerMemoryStackTop - 10 ≤ x → x < lowerMemoryStackTop - 8 →
    (cb c).mem x = c.mem x

/-- it preserves the registers of `sp` and `bp` whole, and leaves the stack above it and the caller's
frame alone -/
structure LeavesCaller (cb : Callback) (s c : Machine) : Prop extends PreservesSpBp cb c where
  rsp : (cb c).cpu.regs .rsp = c.cpu.regs .rsp
  rbp : (cb c).cpu.regs .rbp = c.cpu.regs .rbp
  stack : ∀ x, lowerMemoryStackTop - 10 ≤ x → x < lowerMemoryStackTop → (cb c).mem x = c.mem x
  frame : ∀ x, (s.cpu.regs .rsp).toNat - 8 ≤ x → x < (s.cpu.regs .rsp).toNat + 8 →
    (cb c).mem x = c.mem x

/-- the saved `rbp` and the return address lie apart from the stack of the switches -/
def FrameApart (s : Machine) : Prop :=
  8 ≤ (s.cpu.regs .rsp).toNat ∧ ((s.cpu.regs .rsp).toNat + 8 ≤ lowerMemoryStackTop - 32 ∨
    lowerMemoryStackTop ≤ (s.cpu.regs .rsp).toNat - 8)

section
variable {img : RealModeCode} {cb : Callback} {s : Machine}

theorem Called.copied (h : Called img s) : (s.cpu.regs .rdi).toNat - img.realModeStart
    + realModeBaseAddress < 2 ^ 16 := by
  have hle := h.le_rdi
  have hlt := h.rdi_lt
  have hsize := img.size_le
  omega

theorem relocated_rdi (h : Called img s) :
    s.cpu.regs .rdi - BitVec.ofNat 64 img.realModeStart + BitVec.ofNat 64 realModeBaseAddress
      = BitVec.ofNat 64 ((s.cpu.regs .rdi).toNat - img.realModeStart + realModeBaseAddress) := by
  have hle := h.le_rdi
  have hcopied := h.copied
  have hstart := img.start_lt
  have hrdi := (s.cpu.regs .rdi).isLt
  apply BitVec.eq_of_toNat_eq
  rw [BitVec.toNat_add, BitVec.toNat_sub, BitVec.toNat_ofNat, BitVec.toNat_ofNat, BitVec.toNat_ofNat]
  unfold realModeBaseAddress at hcopied ⊢
  omega

/-- the state in which `call_real_mode_function` is called: `rbp` is saved, and `rsp` is in `rbp` -/
structure Framed (img : RealModeCode) (s t : Machine) : Prop where
  bits : codeBits t = 64
  rsp : t.cpu.regs .rsp = BitVec.ofNat 64 lowerMemoryStackTop
  rbp : t.cpu.regs .rbp = s.cpu.regs .rsp - 8#64
  rdi : t.cpu.regs .rdi
    = BitVec.ofNat 64 ((s.cpu.regs .rdi).toNat - img.realModeStart + realModeBaseAddress)
  rax : t.cpu.regs .rax = img.relocation .callRealModeFunction
  mem : t.mem = s.mem.store64 ((s.cpu.regs .rsp).toNat - 8) (s.cpu.regs .rbp)

theorem framed (h : Called img s) (h8 : 8 ≤ (s.cpu.regs .rsp).toNat) : ∃ t, Framed img s t ∧
    ∀ g : Code Path Unit, (do
      instr fun s => pushWord (s.cpu.regs .rbp) s
      instr fun s => putReg .rbp (s.cpu.regs .rsp) s
      instr (putReg .rsp (BitVec.ofNat 64 lowerMemoryStackTop))
      instr fun s => putReg .rdi (s.cpu.regs .rdi - BitVec.ofNat 64 img.realModeStart) s
      instr fun s => putReg .rdi (s.cpu.regs .rdi + BitVec.ofNat 64 realModeBaseAddress) s
      instr (putReg .rax (img.relocation .callRealModeFunction))
      g : Code Path Unit).run ⟨s, []⟩ = g.run ⟨t, []⟩ := by
  have haddress : (s.cpu.regs .rsp - 8#64).toNat = (s.cpu.regs .rsp).toNat - 8 := by
    rw [BitVec.toNat_sub, BitVec.toNat_ofNat]
    omega
  simp only [run_instr_bind, pushWord_64 h.bits, haddress]
  refine ⟨_, ⟨?_, ?_, ?_, ?_, ?_, ?_⟩, fun g => rfl⟩
  · exact h.bits
  · simp [putReg]
  · simp [putReg]
  · simpa [putReg] using relocated_rdi h
  · simp [putReg]
  · rfl

/-- the memory with the caller's frame: its `rbp` is saved below the return address -/
def frameMem (s : Machine) : Mem :=
  s.mem.store64 ((s.cpu.regs .rsp).toNat - 8) (s.cpu.regs .rbp)

theorem frameMem_loads {m : Mem} (h8 : 8 ≤ (s.cpu.regs .rsp).toNat)
    (h : ∀ x, (s.cpu.regs .rsp).toNat - 8 ≤ x → x < (s.cpu.regs .rsp).toNat + 8 → m x = frameMem s x) :
    m.load64 ((s.cpu.regs .rsp).toNat - 8) = s.cpu.regs .rbp ∧
      m.load64 (s.cpu.regs .rsp).toNat = s.mem.load64 (s.cpu.regs .rsp).toNat := by
  have hsaved : m.load64 ((s.cpu.regs .rsp).toNat - 8)
      = (frameMem s).load64 ((s.cpu.regs .rsp).toNat - 8) :=
    Mem.load64_congr fun k hk => h _ (by omega) (by omega)
  have hreturn : m.load64 (s.cpu.regs .rsp).toNat = (frameMem s).load64 (s.cpu.regs .rsp).toNat :=
    Mem.load64_congr fun k hk => h _ (by omega) (by omega)
  rw [hsaved, hreturn]
  exact ⟨Mem.load64_store64_same _ _ _, Mem.load64_store64_disjoint _ _ _ _ (by omega)⟩

/-- the state in which `call rax` arrives -/
structure Jumped (img : RealModeCode) (s t : Machine) : Prop where
  bits : codeBits t = 64
  rsp : t.cpu.regs .rsp = BitVec.ofNat 64 (lowerMemoryStackTop - 8)
  rbp : t.cpu.regs .rbp = s.cpu.regs .rsp - 8#64
  rdi : t.cpu.regs .rdi
    = BitVec.ofNat 64 ((s.cpu.regs .rdi).toNat - img.realModeStart + realModeBaseAddress)
  back : t.mem.load64 (lowerMemoryStackTop - 8) = img.behindCall
  mem : ∀ x, x < lowerMemoryStackTop - 8 ∨ lowerMemoryStackTop ≤ x → t.mem x = frameMem s x

theorem Framed.jumped {t : Machine} (hf : Framed img s t) : ∃ u, Jumped img s u ∧
    ∀ g : Code Path Unit, (do
      instr fun s => putReg .rip (s.cpu.regs .rax) s
      continueAt (img.relocation .callRealModeFunction) 64
      g : Code Path Unit).run ⟨pushWord img.behindCall t, []⟩ = g.run ⟨u, []⟩ := by
  have h₁ := pushed img.behindCall (n := 8) hf.bits hf.rsp (by decide) (by decide)
  generalize pushWord img.behindCall t = s₁ at h₁ ⊢
  have hbits : codeBits (putReg .rip (img.relocation .callRealModeFunction) s₁) = 64 := by
    rw [codeBits_putReg, h₁.codeBits, hf.bits]
  have hrax : s₁.cpu.regs .rax = img.relocation .callRealModeFunction :=
    (h₁.regs .rax (by decide)).trans hf.rax
  have hregs : ∀ r, r ≠ .rip → (putReg .rip (img.relocation .callRealModeFunction) s₁).cpu.regs r
      = s₁.cpu.regs r := by
    intro r hr
    simp [putReg, hr]
  refine ⟨putReg .rip (img.relocation .callRealModeFunction) s₁,
    ⟨hbits, ?_, ?_, ?_, h₁.load64, fun x hx => ?_⟩, fun g => ?_⟩
  · rw [hregs .rsp (by decide), h₁.rsp]
  · rw [hregs .rbp (by decide), h₁.regs .rbp (by decide), hf.rbp]
  · rw [hregs .rdi (by decide), h₁.regs .rdi (by decide), hf.rdi]
  · exact (h₁.outside (by decide) x hx).trans (congrFun hf.mem x)
  · have hrip : (putReg .rip (img.relocation .callRealModeFunction) s₁).cpu.regs .rip
        = img.relocation .callRealModeFunction := by simp [putReg]
    rw [run_instr_bind, hrax, run_continueAt_bind hrip hbits]

/-- the call of the copied code -/
theorem Framed.called (cb : Callback) {t : Machine} (hf : Framed img s t) (h : Called img s)
    (hapart : FrameApart s) : ∃ c, Entered img s c ∧
      (LeavesCaller cb s c → ∃ u, (call img.behindCall 64 do
          instr fun s => putReg .rip (s.cpu.regs .rax) s
          continueAt (img.relocation .callRealModeFunction) 64
          img.callRealModeFunction cb).run ⟨t, []⟩ = .ret () ⟨u, [c]⟩ ∧
        codeBits u = 64 ∧ u.cpu.regs .rbp = s.cpu.regs .rsp - 8#64 ∧
        u.mem.load64 ((s.cpu.regs .rsp).toNat - 8) = s.cpu.regs .rbp ∧
        u.mem.load64 (s.cpu.regs .rsp).toNat = s.mem.load64 (s.cpu.regs .rsp).toNat ∧
        ∀ x, ¬ OnStack s x → u.mem x = (cb c).mem x) := by
  obtain ⟨h8, hframe⟩ := hapart
  have htop : lowerMemoryStackTop = 0x7BFF := rfl
  have hrsp_lt := h.rsp_lt
  have hcopied := h.copied
  obtain ⟨v, hv, hjump⟩ := hf.jumped
  have hrdi_lt : (v.cpu.regs .rdi).toNat < 2 ^ 16 := by
    rw [hv.rdi, BitVec.toNat_ofNat]
    omega
  have hrbp_lt : (v.cpu.regs .rbp).toNat < 2 ^ 32 := by
    rw [hv.rbp, BitVec.toNat_sub, BitVec.toNat_ofNat]
    omega
  obtain ⟨c, ⟨hcrip, hcrsp, hcrbp, hcreal, hcmem⟩, hreturn⟩ := callRealModeFunction_runs img [] cb hv.bits
    hv.rsp (by decide) (by decide) hrdi_lt hrbp_lt
  have hentered : Entered img s c := by
    refine ⟨hcrip.trans hv.rdi, hcrsp, hcrbp.trans hv.rbp, hcreal, fun x hx => ?_⟩
    unfold OnStack at hx
    rw [hcmem x (by omega), hv.mem x (by omega)]
    exact Mem.store64_outside _ _ _ _ (by omega)
  refine ⟨c, hentered, fun hleaves => ?_⟩
  obtain ⟨u, hrun, hubits, hurip, hursp, hurbp, humem⟩ := hreturn hleaves.real hleaves.rsp
    fun x hlo hhi => hleaves.stack x (by omega) (by omega)
  -- the caller's frame lies apart from the stack
  have hloads := frameMem_loads h8 (m := u.mem) fun x hlo hhi => by
    rw [humem x (by omega), hleaves.frame x hlo hhi, hcmem x (by omega), hv.mem x (by omega)]
  refine ⟨u, run_call ((hjump _).trans hrun) (hurip.trans hv.back) hubits, hubits, ?_, hloads.1, hloads.2,
    fun x hx => ?_⟩
  · rw [hurbp, hleaves.rbp, hcrbp, hv.rbp]
  · unfold OnStack at hx
    exact humem x (by omega)

/-- `leave` and `ret` -/
theorem leave_ret {u : Machine} {sp : BitVec 64} (hbits : codeBits u = 64)
    (hrbp : u.cpu.regs .rbp = sp - 8#64) (h8 : 8 ≤ sp.toNat) : ∃ t,
    ret 0 (popWord .rbp (putReg .rsp (u.cpu.regs .rbp) u)) = t ∧ codeBits t = 64 ∧
      t.cpu.regs .rip = u.mem.load64 sp.toNat ∧ t.cpu.regs .rsp = sp + 8#64 ∧
      t.cpu.regs .rbp = u.mem.load64 (sp.toNat - 8) ∧ t.mem = u.mem := by
  have haddress : (sp - 8#64).toNat = sp.toNat - 8 := by
    rw [BitVec.toNat_sub, BitVec.toNat_ofNat]
    omega
  have hup : sp - 8#64 + 8#64 = sp := BitVec.sub_add_cancel sp 8#64
  have hrsp : (putReg .rsp (u.cpu.regs .rbp) u).cpu.regs .rsp = sp - 8#64 := by simp [putReg, hrbp]
  have hpop := popWord_64 (s := putReg .rsp (u.cpu.regs .rbp) u) (r := .rbp) hbits
  rw [hrsp, haddress, hup] at hpop
  have hbits' : codeBits (popWord .rbp (putReg .rsp (u.cpu.regs .rbp) u)) = 64 := by
    rw [hpop]
    exact hbits
  rw [ret_64 hbits', hpop]
  exact ⟨_, rfl, hbits, by simp [putReg], by simp [putReg], by simp [putReg], rfl⟩

/-- **the caller gets its registers back** -/
theorem realModeCallback_restores (h : Called img s) (hapart : FrameApart s)
    (hcb : ∀ c, Entered img s c → LeavesCaller cb s c) : RestoresCaller img cb s := by
  obtain ⟨s₁, hframed, hrun⟩ := framed h hapart.1
  unfold RestoresCaller RealModeCode.realModeCallback
  simp only [hrun]
  obtain ⟨c, hc, hreturn⟩ := hframed.called cb h hapart
  obtain ⟨u, hcall, hbits, hrbp, hsaved, hret, hmem⟩ := hreturn (hcb c hc)
  obtain ⟨t, hleave, htbits, htrip, htrsp, htrbp, htmem⟩ := leave_ret hbits hrbp hapart.1
  rw [bind_of_ret hcall]
  simp only [run_instr_bind, run_instr]
  rw [hleave]
  exact ⟨c, t, rfl, hc, ⟨htbits, htrip.trans hret, htrsp, htrbp.trans hsaved⟩,
    fun x hx => by rw [htmem, hmem x hx]⟩

end

/-! ## an input -/

def sampleCode : RealModeCode where
  realModeStart := 0x101000
  size := 0x1000
  offset
    | .callRealModeFunction => 0
    | .compatibilityMode => 16
    | .protectedRealMode => 32
    | .realMode => 48
    | .protectedMode => 64
    | .longMode => 80
    | .behindLongToProtected => 96
    | .behindProtectedToReal => 112
    | .behindCallback => 128
    | .behindRealToProtected => 144
    | .behindProtectedToLong => 160
  behindCall := 0x100ABC#64
  upper := id
  start_lt := by decide
  size_le := by decide
  offset_lt := by intro l; cases l <;> decide
  upper_zero := rfl

/-- the callback is at `0x101800` -/
def sampleMachine (rsp : BitVec 64) : Machine :=
  { (default : Machine) with
    mem := fun _ => 0#8
    cpu := { (default : Cpu) with
      regs := fun
        | .rsp => rsp
        | .rbp => 0x120000#64
        | .rdi => 0x101800#64
        | _ => 0#64
      cr0 := 0x80000001#64
      cr4 := 0x20#64
      msr := fun _ => 0x100#64
      cs := ia32eCodeSegment
      ss := ia32eDataSegment } }

theorem sampleMachine_called (rsp : BitVec 64) (h : rsp.toNat < 2 ^ 32) :
    Called sampleCode (sampleMachine rsp) where
  bits := codeBits_64 (by decide : (0x80000001#64).getLsbD 0 = true)
    (by decide : ((0x80000001#64).getLsbD 31 && (0x20#64).getLsbD 5 && (0x100#64).getLsbD 8) = true) rfl
  rsp_lt := h
  rbp_lt := (by decide : (0x120000#64).toNat < 2 ^ 32)
  return_lt := by
    have hzero : (sampleMachine rsp).mem.load64 rsp.toNat = 0#64 := Mem.load64_eq_zero fun _ _ => rfl
    exact lt_of_eq_of_lt (congrArg BitVec.toNat hzero) (by decide)
  le_rdi := (by decide : 0x101000 ≤ (0x101800#64).toNat)
  rdi_lt := (by decide : (0x101800#64).toNat < 0x101000 + 0x1000)

/-- a callback that sets `al` and a byte of its buffer -/
def sampleCallback : Callback := fun c =>
  { putReg .rax (resize 16 (c.cpu.regs .rax) 1#64) c with mem := Function.update c.mem 0x5000 0xFF#8 }

theorem realModeCallback_restores_sample :
    RestoresCaller sampleCode sampleCallback (sampleMachine 0x11F000#64) := by
  have hcb : ∀ c, Entered sampleCode (sampleMachine 0x11F000#64) c →
      LeavesCaller sampleCallback (sampleMachine 0x11F000#64) c := by
    intro c hc
    have hregs : ∀ r, r ≠ .rax → (sampleCallback c).cpu.regs r = c.cpu.regs r := by
      intro r hr
      simp [sampleCallback, putReg, hr]
    have hmem : ∀ x, 0x5000 < x → (sampleCallback c).mem x = c.mem x := by
      intro x hx
      simp [sampleCallback, Nat.ne_of_gt hx]
    have hsp : (sampleMachine 0x11F000#64).cpu.regs .rsp = 0x11F000#64 := rfl
    have htop : lowerMemoryStackTop = 0x7BFF := rfl
    have hrsp := hregs .rsp (by decide)
    have hrbp := hregs .rbp (by decide)
    refine ⟨⟨hc.real, rfl, rfl, by rw [hrsp], by rw [hrbp], fun x hx _ => hmem x (by omega)⟩, hrsp, hrbp,
      fun x hx _ => hmem x (by omega), fun x hx _ => hmem x ?_⟩
    rw [hsp, BitVec.toNat_ofNat] at hx
    omega
  have hapart : FrameApart (sampleMachine 0x11F000#64) := ⟨by decide, .inr (by decide)⟩
  exact realModeCallback_restores (sampleMachine_called _ (by decide)) hapart hcb

/-! ## what the amendments are for -/

/-- where a run goes on, with which `rsp` and `rbp` -/
def lands : Outcome Path Unit → Option (BitVec 64 × BitVec 64 × BitVec 64)
  | .ret _ p => some (p.machine.cpu.regs .rip, p.machine.cpu.regs .rsp, p.machine.cpu.regs .rbp)
  | _ => none

theorem RestoresCaller.lands {img : RealModeCode} {cb : Callback} {s : Machine}
    (h : RestoresCaller img cb s) : Bios.lands ((img.realModeCallback cb).run ⟨s, []⟩)
      = some (s.mem.load64 (s.cpu.regs .rsp).toNat, s.cpu.regs .rsp + 8#64, s.cpu.regs .rbp) := by
  obtain ⟨c, t, hrun, -, ⟨-, hrip, hrsp, hrbp⟩, -⟩ := h
  rw [hrun, Bios.lands, hrip, hrsp, hrbp]

/-- `xor ebp, 0x10000` -/
def upperBp : Callback := fun c => putReg .rbp (c.cpu.regs .rbp ^^^ 0x10000#64) c

/-- a callback that writes a byte above its return address -/
def writesAbove : Callback := fun c => { c with mem := Function.update c.mem 0x7BF8 0xFF#8 }

set_option maxRecDepth 10000 in
/-- **a frame on the stack of the switches, a callback that preserves `bp` but not the upper half of
`ebp`, and one that writes on the stack above it** -/
theorem realModeCallback_loses :
    (Called sampleCode (sampleMachine 0x7BF8#64) ∧
      (∀ c, Entered sampleCode (sampleMachine 0x7BF8#64) c → PreservesSpBp id c) ∧
      ¬ RestoresCaller sampleCode id (sampleMachine 0x7BF8#64)) ∧
    (Called sampleCode (sampleMachine 0x11F000#64) ∧
      (∀ c, Entered sampleCode (sampleMachine 0x11F000#64) c → PreservesSpBp upperBp c) ∧
      ¬ RestoresCaller sampleCode upperBp (sampleMachine 0x11F000#64)) ∧
    Called sampleCode (sampleMachine 0x11F000#64) ∧
      (∀ c, Entered sampleCode (sampleMachine 0x11F000#64) c → PreservesSpBp writesAbove c) ∧
      ¬ RestoresCaller sampleCode writesAbove (sampleMachine 0x11F000#64) := by
  have hupper : ∀ c, Entered sampleCode (sampleMachine 0x11F000#64) c → PreservesSpBp upperBp c := by
    intro c hc
    have hbp : c.cpu.regs .rbp = 0x11EFF8#64 := hc.rbp
    refine ⟨hc.real, rfl, rfl, ?_, ?_, fun x _ _ => rfl⟩
    · simp [upperBp, putReg]
    · simp only [upperBp, putReg, Function.update_self, hbp]
      decide
  have hwrites : ∀ c, Entered sampleCode (sampleMachine 0x11F000#64) c → PreservesSpBp writesAbove c := by
    intro c hc
    refine ⟨hc.real, rfl, rfl, rfl, rfl, fun x _ hx => Function.update_of_ne ?_ _ _⟩
    have htop : lowerMemoryStackTop = 0x7BFF := rfl
    omega
  refine ⟨⟨sampleMachine_called _ (by decide),
      fun c hc => ⟨hc.real, rfl, rfl, rfl, rfl, fun _ _ _ => rfl⟩, ?_⟩,
    ⟨sampleMachine_called _ (by decide), hupper, ?_⟩, sampleMachine_called _ (by decide), hwrites, ?_⟩
  · exact fun h => absurd h.lands (by decide +kernel)
  · exact fun h => absurd h.lands (by decide +kernel)
  · exact fun h => absurd h.lands (by decide +kernel)

end HyperC.Bios
