import HyperC.Bios.SwitchModes

/-!
# The switches come back

Every switch is called in one mode and left in another one, so the word that its `ret` pops has another
width than the one that its call pushed.

* `codeBits_real`, …, `codeBits_64`   what says in which mode the processor is;
* `Pushed`, `Popped`, `Landed`, `Far`   what an instruction on the stack leaves of the state before it;
* `Quiet`                an instruction that is about the mode only;
* `call_longToProtected`, `call_protectedToReal`, `call_realToProtected`, `call_protectedToLong`   one
                         lemma for each switch: it lands behind its call, with the stack pointer of
                         before (`Back`);
* `call_callback`        the callback does so if it keeps its stack pointer and its return address;
* `callRealModeFunction_runs`   the five calls one after the other.
-/

namespace HyperC.Bios
open Code

theorem RealModeCode.relocation_lt (img : RealModeCode) (l : Label) :
    (img.relocation l).toNat < 2 ^ 16 := by
  have hoff := img.offset_lt l
  have hsize := img.size_le
  rw [RealModeCode.relocation, BitVec.toNat_ofNat]
  omega

/-! ## widths -/

section
variable {s : Machine}

theorem codeBits_real (h : protection s = false) : codeBits s = 16 := by
  rw [codeBits, h]
  rfl

theorem codeBits_16 (h : s.cpu.cs = realModeCodeSegment) : codeBits s = 16 := by
  have hlong : longFlag realModeCodeSegment = false := by decide
  have hbig : bigFlag realModeCodeSegment = false := by decide
  rw [codeBits, h, hlong, hbig, Bool.and_false]
  split <;> rfl

theorem codeBits_32 (hp : protection s = true) (h : s.cpu.cs = ia32CodeSegment) :
    codeBits s = 32 := by
  have hlong : longFlag ia32CodeSegment = false := by decide
  have hbig : bigFlag ia32CodeSegment = true := by decide
  rw [codeBits, h, hp, hlong, hbig, Bool.and_false]
  rfl

theorem codeBits_64 (hp : protection s = true) (hl : longModeActive s = true)
    (h : s.cpu.cs = ia32eCodeSegment) : codeBits s = 64 := by
  have hlong : longFlag ia32eCodeSegment = true := by decide
  rw [codeBits, h, hp, hl, hlong]
  rfl

/-- outside real mode protection is enabled -/
theorem protection_of_codeBits (h : codeBits s ≠ 16) : protection s = true := by
  by_contra hp
  exact h (codeBits_real (Bool.eq_false_iff.mpr hp))

theorem codeBits_putReg (r : Reg) (v : BitVec 64) : codeBits (putReg r v s) = codeBits s := rfl

theorem protection_editCr0 (f : BitVec 32 → BitVec 32) :
    protection (editCr0 f s) = (f (s.cpu.cr0.setWidth 32)).getLsbD 0 := by
  simp [protection, editCr0, putReg]

end

/-! ## runs -/

section
variable {s : Machine} {es : List Machine}

theorem run_instr (f : Machine → Machine) : (instr f).run ⟨s, es⟩ = .ret () ⟨f s, es⟩ := rfl

theorem run_continueAt {rip : BitVec 64} {bits : ℕ} (hrip : s.cpu.regs .rip = rip)
    (hbits : codeBits s = bits) : (continueAt rip bits).run ⟨s, es⟩ = .ret () ⟨s, es⟩ := by
  show (if s.cpu.regs .rip = rip ∧ codeBits s = bits then pure () else leave id : Code Path Unit).run
    ⟨s, es⟩ = _
  rw [if_pos ⟨hrip, hbits⟩]
  rfl

theorem run_instr_bind (f : Machine → Machine) (g : Unit → Code Path Unit) :
    (instr f >>= g).run ⟨s, es⟩ = (g ()).run ⟨f s, es⟩ := bind_of_ret (run_instr f) g

theorem run_continueAt_bind {rip : BitVec 64} {bits : ℕ} (hrip : s.cpu.regs .rip = rip)
    (hbits : codeBits s = bits) (g : Unit → Code Path Unit) :
    (continueAt rip bits >>= g).run ⟨s, es⟩ = (g ()).run ⟨s, es⟩ :=
  bind_of_ret (run_continueAt hrip hbits) g

theorem run_call {next : BitVec 64} {bits : ℕ} {body : Code Path Unit} {t : Machine}
    {es' : List Machine} (h : body.run ⟨pushWord next s, es⟩ = .ret () ⟨t, es'⟩)
    (hrip : t.cpu.regs .rip = next) (hbits : codeBits t = bits) :
    (call next bits body).run ⟨s, es⟩ = .ret () ⟨t, es'⟩ := by
  unfold call
  rw [bind_of_ret (run_instr _), bind_of_ret h, run_continueAt hrip hbits]

end

/-! ## words on the stack -/

section
variable (img : RealModeCode) (es : List Machine) {s : Machine} {S : ℕ} {next : BitVec 64}

/-- a call has come back to code of so many bits, with the stack pointer of before, `depth` bytes
deep -/
structure Back (bits S depth : ℕ) (s t : Machine) : Prop where
  bits : codeBits t = bits
  rsp : t.cpu.regs .rsp = BitVec.ofNat 64 S
  mem : ∀ x, x < S - depth ∨ S ≤ x → t.mem x = s.mem x

/-- the low part of a pushed address is the address, if it is small -/
theorem popped_low {n k : ℕ} {m : Mem} {a : ℕ} (hk : k ≤ n) (hv : next.toNat < 2 ^ (8 * k)) :
    ((@Mem.store m a n (next.setWidth (8 * n))).load a k).setWidth 64 = next := by
  apply BitVec.eq_of_toNat_eq
  have hle : next.toNat < 2 ^ (8 * n) :=
    lt_of_lt_of_le hv (Nat.pow_le_pow_right (by omega) (by omega))
  rw [Mem.load_store_low _ _ _ hk, BitVec.toNat_setWidth, BitVec.toNat_setWidth, BitVec.toNat_setWidth,
    Nat.mod_eq_of_lt hle, Nat.mod_eq_of_lt hv, Nat.mod_eq_of_lt next.isLt]

theorem retfq_low {upper : BitVec 32 → BitVec 32} (h : s.cpu.regs .rsp = BitVec.ofNat 64 S)
    (hS : S + 16 < 2 ^ 16) : retfq upper s
      = farJump ((s.mem.load64 (S + 8)).setWidth 16) (s.mem.load64 S)
        { s with cpu := { s.cpu with
          regs := fun r => dropUpper upper ((putReg .rsp (BitVec.ofNat 64 (S + 16)) s).cpu.regs r) } } := by
  rw [retfq, stackPointer_low h (by omega)]
  have hmove : moveStack 16#64 s = putReg .rsp (BitVec.ofNat 64 (S + 16)) s := moveStack_up (n := 16) h hS
  simp only [hmove]
  rfl

theorem dropUpper_low {upper : BitVec 32 → BitVec 32} (h0 : upper 0#32 = 0#32) {v : BitVec 64}
    (hv : v.toNat < 2 ^ 32) : dropUpper upper v = v := by
  have hhi : v.extractLsb' 32 32 = 0#32 := by
    apply BitVec.eq_of_toNat_eq
    rw [BitVec.extractLsb'_toNat, BitVec.toNat_ofNat, Nat.shiftRight_eq_div_pow]
    omega
  apply BitVec.eq_of_toNat_eq
  rw [dropUpper, hhi, h0, BitVec.toNat_append, BitVec.extractLsb'_toNat, BitVec.toNat_ofNat,
    Nat.zero_mod, Nat.zero_shiftLeft, Nat.zero_or, Nat.shiftRight_zero]
  exact Nat.mod_eq_of_lt hv

/-- a word of `n` bytes has been pushed at `S - n` -/
structure Pushed (n S : ℕ) (v : BitVec 64) (s t : Machine) : Prop where
  rsp : t.cpu.regs .rsp = BitVec.ofNat 64 (S - n)
  regs : ∀ r, r ≠ .rsp → t.cpu.regs r = s.cpu.regs r
  mem : t.mem = @Mem.store s.mem (S - n) n (v.setWidth (8 * n))
  cpu : t.cpu = { s.cpu with regs := t.cpu.regs }

theorem pushed {n : ℕ} (v : BitVec 64) (hbits : codeBits s = 8 * n)
    (hrsp : s.cpu.regs .rsp = BitVec.ofNat 64 S) (hS : S < 2 ^ 16) (hn : n ≤ S) :
    Pushed n S v s (pushWord v s) := by
  have hw : wordSize s = n := by
    rw [wordSize, hbits]
    omega
  rw [pushWord_low hw hrsp hS hn]
  exact ⟨by simp [putReg], fun r hr => by simp [putReg, hr], rfl, rfl⟩

theorem Pushed.codeBits {n : ℕ} {v : BitVec 64} {t : Machine} (h : Pushed n S v s t) :
    codeBits t = codeBits s := by
  unfold Bios.codeBits longModeActive protection
  rw [h.cpu]

theorem Pushed.cr0 {n : ℕ} {v : BitVec 64} {t : Machine} (h : Pushed n S v s t) :
    t.cpu.cr0 = s.cpu.cr0 := by
  rw [h.cpu]

theorem Pushed.outside {n : ℕ} {v : BitVec 64} {t : Machine} (h : Pushed n S v s t) (hn : n ≤ S)
    (x : ℕ) (hx : x < S - n ∨ S ≤ x) : t.mem x = s.mem x := by
  rw [h.mem]
  exact Mem.store_outside _ _ _ _ (by omega)

theorem Pushed.kept {n : ℕ} {v : BitVec 64} {t : Machine} (h : Pushed n S v s t) (hn : n ≤ S)
    {a k : ℕ} (ha : S ≤ a) : t.mem.load a k = s.mem.load a k :=
  Mem.load_congr fun _ _ => h.outside hn _ (by omega)

theorem Pushed.top {n k : ℕ} {v : BitVec 64} {t : Machine} (h : Pushed n S v s t) (hk : k ≤ n)
    (hv : v.toNat < 2 ^ (8 * k)) : (t.mem.load (S - n) k).setWidth 64 = v := by
  rw [h.mem]
  exact popped_low hk hv

theorem Pushed.load64 {v : BitVec 64} {t : Machine} (h : Pushed 8 S v s t) :
    t.mem.load64 (S - 8) = v := by
  rw [h.mem]
  exact (Mem.load_store_same _ _ _).trans (BitVec.setWidth_eq v)

/-- the word at `T` has been popped into `r` -/
structure Popped (n : ℕ) (r : Reg) (T : ℕ) (s t : Machine) : Prop where
  rsp : t.cpu.regs .rsp = BitVec.ofNat 64 (T + n)
  word : t.cpu.regs r = resize (8 * n) (s.cpu.regs r) ((s.mem.load T n).setWidth 64)
  regs : ∀ q, q ≠ .rsp → q ≠ r → t.cpu.regs q = s.cpu.regs q
  mem : t.mem = s.mem
  cpu : t.cpu = { s.cpu with regs := t.cpu.regs }

theorem popped {n T : ℕ} {r : Reg} (hbits : codeBits s = 8 * n)
    (hrsp : s.cpu.regs .rsp = BitVec.ofNat 64 T) (hT : T + n < 2 ^ 16) (hr : r ≠ .rsp) :
    Popped n r T s (popWord r s) := by
  have hw : wordSize s = n := by
    rw [wordSize, hbits]
    omega
  rw [popWord_low hw hrsp hT hr, hbits]
  exact ⟨by simp [putReg, hr.symm], by simp [putReg], fun q hp hq => by simp [putReg, hp, hq], rfl, rfl⟩

/-- a return has landed, with the stack pointer at `S` -/
structure Landed (next : BitVec 64) (S : ℕ) (s t : Machine) : Prop where
  rip : t.cpu.regs .rip = next
  rsp : t.cpu.regs .rsp = BitVec.ofNat 64 S
  regs : ∀ r, r ≠ .rip → r ≠ .rsp → t.cpu.regs r = s.cpu.regs r
  mem : t.mem = s.mem
  bits : codeBits t = codeBits s
  protection : Bios.protection t = Bios.protection s

theorem landed {n k T : ℕ} (hbits : codeBits s = 8 * n) (hrsp : s.cpu.regs .rsp = BitVec.ofNat 64 T)
    (hS : T + (n + k) = S) (hlt : S < 2 ^ 16) (htop : (s.mem.load T n).setWidth 64 = next) :
    Landed next S s (ret k s) := by
  have hw : wordSize s = n := by
    rw [wordSize, hbits]
    omega
  rw [ret_low hw hrsp (by omega), htop, hS]
  exact ⟨by simp [putReg], by simp [putReg], fun r hi hp => by simp [putReg, hi, hp], rfl, rfl, rfl⟩

/-! ## instructions about the mode -/

/-- the registers that the switches use -/
def scratch : List Reg := [.rax, .rcx, .rdx, .rip]

theorem ne_rip_of_not_scratch {r : Reg} (hr : r ∉ scratch) : r ≠ .rip :=
  (ne_of_mem_of_not_mem (by decide) hr).symm

/-- an instruction that is about the mode only -/
structure Quiet (s t : Machine) : Prop where
  mem : t.mem = s.mem
  regs : ∀ r, r ∉ scratch → t.cpu.regs r = s.cpu.regs r

theorem Quiet.trans {t u : Machine} (h₁ : Quiet s t) (h₂ : Quiet t u) : Quiet s u :=
  ⟨h₂.mem.trans h₁.mem, fun r hr => (h₂.regs r hr).trans (h₁.regs r hr)⟩

theorem quiet_putReg {t : Machine} {r : Reg} {v : BitVec 64} (h : Quiet s t) (hr : r ∈ scratch) :
    Quiet s (putReg r v t) :=
  h.trans ⟨rfl, fun q hq => by simp [putReg, (ne_of_mem_of_not_mem hr hq).symm]⟩

theorem quiet_setDataSegments (selector : BitVec 16) : Quiet s (setDataSegments selector s) :=
  quiet_putReg ⟨rfl, fun _ _ => rfl⟩ (by decide)

theorem quiet_editCr0 (f : BitVec 32 → BitVec 32) : Quiet s (editCr0 f s) :=
  quiet_putReg ⟨rfl, fun _ _ => rfl⟩ (by decide)

theorem quiet_editCr4 (f : BitVec 32 → BitVec 32) : Quiet s (editCr4 f s) :=
  quiet_putReg ⟨rfl, fun _ _ => rfl⟩ (by decide)

theorem quiet_editEfer (f : BitVec 32 → BitVec 32) : Quiet s (editEfer f s) :=
  quiet_putReg (quiet_putReg (quiet_putReg ⟨rfl, fun _ _ => rfl⟩ (by decide)) (by decide)) (by decide)

theorem quiet_cli : Quiet s (cli s) := ⟨rfl, fun _ _ => rfl⟩

theorem quiet_lidt (idtr : TableReg) : Quiet s (lidt idtr s) := ⟨rfl, fun _ _ => rfl⟩

theorem quiet_setCr3 (base : BitVec 64) : Quiet s (setCr3 base s) :=
  quiet_putReg ⟨rfl, fun _ _ => rfl⟩ (by decide)

theorem quiet_farJump (cs : BitVec 16) (rip : BitVec 64) : Quiet s (farJump cs rip s) :=
  quiet_putReg (t := { s with cpu := { s.cpu with cs := cs } }) ⟨rfl, fun _ _ => rfl⟩ (by decide)

section
variable (f : BitVec 32 → BitVec 32) (selector : BitVec 16) (rip : BitVec 64)

@[simp] theorem protection_setDataSegments :
    protection (setDataSegments selector s) = protection s := rfl
@[simp] theorem protection_editCr4 : protection (editCr4 f s) = protection s := rfl
@[simp] theorem protection_editEfer : protection (editEfer f s) = protection s := rfl
@[simp] theorem protection_farJump : protection (farJump selector rip s) = protection s := rfl
@[simp] theorem cr0_setDataSegments : (setDataSegments selector s).cpu.cr0 = s.cpu.cr0 := rfl
@[simp] theorem msr_editCr0 : (editCr0 f s).cpu.msr = s.cpu.msr := rfl
@[simp] theorem cs_farJump : (farJump selector rip s).cpu.cs = selector := rfl
@[simp] theorem rip_farJump : (farJump selector rip s).cpu.regs .rip = rip := by simp [farJump]

end

/-- a far return has landed, with the stack pointer at `S` -/
structure Far (upper : BitVec 32 → BitVec 32) (selector : BitVec 16) (rip : BitVec 64) (S : ℕ)
    (s t : Machine) : Prop where
  rsp : t.cpu.regs .rsp = BitVec.ofNat 64 S
  rip : t.cpu.regs .rip = rip
  cs : t.cpu.cs = selector
  cr0 : t.cpu.cr0 = s.cpu.cr0
  regs : ∀ r, r ≠ .rsp → r ≠ .rip → t.cpu.regs r = dropUpper upper (s.cpu.regs r)
  mem : ∀ x, x < S - 16 ∨ S ≤ x → t.mem x = s.mem x

/-- **the far pointer is pushed and returned to** -/
theorem retfq_far {upper : BitVec 32 → BitVec 32} (h0 : upper 0#32 = 0#32) (selector : BitVec 16)
    (rip : BitVec 64) (hbits : codeBits s = 64) (hrsp : s.cpu.regs .rsp = BitVec.ofNat 64 S)
    (h16 : 16 ≤ S) (hS : S < 2 ^ 16) : ∃ t,
    retfq upper (pushWord rip (pushWord (selector.setWidth 64) s)) = t ∧
      Far upper selector rip S s t := by
  have h₁ := pushed (selector.setWidth 64) (n := 8) hbits hrsp hS (by omega)
  generalize pushWord (selector.setWidth 64) s = s₁ at h₁ ⊢
  have h₂ := pushed rip (n := 8) (h₁.codeBits.trans hbits) h₁.rsp (by omega) (by omega)
  generalize pushWord rip s₁ = s₂ at h₂ ⊢
  have hselector : (s₂.mem.load64 (S - 8 - 8 + 8)).setWidth 16 = selector := by
    have hload : s₂.mem.load64 (S - 8) = s₁.mem.load64 (S - 8) := h₂.kept (by omega) le_rfl
    rw [Nat.sub_add_cancel (by omega), hload, h₁.load64, BitVec.setWidth_setWidth_of_le _ (by omega),
      BitVec.setWidth_eq]
  have htop : S - 8 - 8 + 16 = S := by omega
  have hsmall : dropUpper upper (BitVec.ofNat 64 S) = BitVec.ofNat 64 S := by
    apply dropUpper_low h0
    rw [BitVec.toNat_ofNat]
    omega
  rw [retfq_low h₂.rsp (by omega), hselector, h₂.load64, htop]
  refine ⟨_, rfl, by simpa [farJump, putReg] using hsmall, by simp [farJump], rfl,
    h₂.cr0.trans h₁.cr0, fun r hp hi => ?_, fun x hx => ?_⟩
  · simp [farJump, putReg, hp, hi, h₂.regs r hp, h₁.regs r hp]
  · exact (h₂.outside (by omega) x (by omega)).trans (h₁.outside (by omega) x (by omega))

/-! ## the switches -/

/-- `compatibility_mode`, up to its `ret` -/
theorem compatibilityMode_quiet (hprot : protection s = true) (hcs : s.cpu.cs = ia32CodeSegment) :
    ∃ t, editCr4 (fun eax => eax &&& ~~~ paeFlag) (editEfer (fun eax => eax &&& ~~~ longModeFlag)
        (editCr0 (fun eax => eax &&& ~~~ pagingFlag) (setDataSegments ia32DataSegment s))) = t ∧
      Quiet s t ∧ codeBits t = 32 := by
  have hbit : (~~~ pagingFlag).getLsbD 0 = true := by decide
  have hprot' : s.cpu.cr0.getLsbD 0 = true := hprot
  refine ⟨_, rfl, (quiet_setDataSegments _).trans ((quiet_editCr0 _).trans ((quiet_editEfer _).trans
    (quiet_editCr4 _))), codeBits_32 ?_ hcs⟩
  rw [protection_editCr4, protection_editEfer, protection_editCr0, BitVec.getLsbD_and, hbit,
    Bool.and_true, BitVec.getLsbD_setWidth, cr0_setDataSegments, hprot']
  rfl

theorem call_longToProtected (hbits : codeBits s = 64) (hrsp : s.cpu.regs .rsp = BitVec.ofNat 64 S)
    (h24 : 24 ≤ S) (hS : S < 2 ^ 16) (hnext : next.toNat < 2 ^ 16) :
    ∃ t, (call next 32 img.longToProtected).run ⟨s, es⟩ = .ret () ⟨t, es⟩ ∧ Back 32 S 24 s t ∧
      t.cpu.regs .rbp = dropUpper img.upper (s.cpu.regs .rbp) ∧
      t.cpu.regs .rdi = dropUpper img.upper (s.cpu.regs .rdi) := by
  have hprot : protection s = true := protection_of_codeBits (by omega)
  have h₁ := pushed next (n := 8) hbits hrsp hS (by omega)
  unfold call RealModeCode.longToProtected
  simp only [bind_assoc, run_instr_bind]
  generalize pushWord next s = s₁ at h₁ ⊢
  obtain ⟨u, hu, hfar⟩ := retfq_far img.upper_zero ia32CodeSegment (img.relocation .compatibilityMode)
    (h₁.codeBits.trans hbits) h₁.rsp (by omega) (by omega)
  have hprot' : protection u = true := by
    rw [protection, hfar.cr0, h₁.cr0]
    exact hprot
  rw [hu, run_continueAt_bind hfar.rip (codeBits_32 hprot' hfar.cs)]
  simp only [run_instr_bind]
  obtain ⟨v, hv, hquiet, hvbits⟩ := compatibilityMode_quiet hprot' hfar.cs
  rw [hv]
  -- `ret` reads the lower half of the return address, and drops the upper one
  have hvrsp : v.cpu.regs .rsp = BitVec.ofNat 64 (S - 8) := (hquiet.regs .rsp (by decide)).trans hfar.rsp
  have htop : (v.mem.load (S - 8) 4).setWidth 64 = next := by
    have hload : v.mem.load (S - 8) 4 = s₁.mem.load (S - 8) 4 := Mem.load_congr fun k _ => by
      rw [hquiet.mem, hfar.mem _ (by omega)]
    rw [hload]
    exact h₁.top (by omega) (by omega)
  have hret : Landed next S v (ret 4 v) := landed (n := 4) hvbits hvrsp (by omega) hS htop
  generalize ret 4 v = t at hret ⊢
  have hregs : ∀ r, r ∉ scratch → r ≠ .rsp → t.cpu.regs r = dropUpper img.upper (s.cpu.regs r) := by
    intro r hr hp
    have hi := ne_rip_of_not_scratch hr
    rw [hret.regs r hi hp, hquiet.regs r hr, hfar.regs r hp hi, h₁.regs r hp]
  have houtside : ∀ x, x < S - 24 ∨ S ≤ x → t.mem x = s.mem x := by
    intro x hx
    rw [hret.mem, hquiet.mem, hfar.mem x (by omega), h₁.outside (by omega) x (by omega)]
  exact ⟨t, run_continueAt hret.rip (hret.bits.trans hvbits),
    ⟨hret.bits.trans hvbits, hret.rsp, houtside⟩, hregs .rbp (by decide) (by decide),
    hregs .rdi (by decide) (by decide)⟩

/-- `protected_real_mode`, up to the jump to real mode -/
theorem protectedRealMode_quiet : ∃ t,
    editCr0 (fun eax => eax &&& ~~~ protectionEnable)
      (lidt ivtPointer (setDataSegments realModeDataSegment s)) = t ∧
      Quiet s t ∧ protection t = false := by
  have hbit : (~~~ protectionEnable).getLsbD 0 = false := by decide
  refine ⟨_, rfl, (quiet_setDataSegments _).trans ((quiet_lidt _).trans (quiet_editCr0 _)), ?_⟩
  rw [protection_editCr0, BitVec.getLsbD_and, hbit, Bool.and_false]

theorem call_protectedToReal (hbits : codeBits s = 32) (hrsp : s.cpu.regs .rsp = BitVec.ofNat 64 S)
    (h4 : 4 ≤ S) (hS : S < 2 ^ 16) (hnext : next.toNat < 2 ^ 16) :
    ∃ t, (call next 16 img.protectedToReal).run ⟨s, es⟩ = .ret () ⟨t, es⟩ ∧ Back 16 S 4 s t ∧
      protection t = false ∧ t.cpu.regs .rbp = s.cpu.regs .rbp ∧
      t.cpu.regs .rdi = s.cpu.regs .rdi := by
  have hprot : protection s = true := protection_of_codeBits (by omega)
  have h₁ := pushed next (n := 4) hbits hrsp hS h4
  unfold call RealModeCode.protectedToReal
  simp only [bind_assoc, run_instr_bind]
  generalize pushWord next s = s₁ at h₁ ⊢
  have hquiet₁ := (quiet_cli (s := s₁)).trans (quiet_farJump realModeCodeSegment
    (img.relocation .protectedRealMode))
  have hbits₁ : codeBits (farJump realModeCodeSegment (img.relocation .protectedRealMode) (cli s₁)) = 16 :=
    codeBits_16 (cs_farJump _ _)
  rw [run_continueAt_bind (rip_farJump _ _) hbits₁]
  simp only [run_instr_bind]
  obtain ⟨u, hu, hquiet₂, hreal⟩ := protectedRealMode_quiet
    (s := farJump realModeCodeSegment (img.relocation .protectedRealMode) (cli s₁))
  rw [hu, run_continueAt_bind (rip_farJump _ _) (codeBits_real ((protection_farJump _ _).trans hreal))]
  simp only [run_instr_bind]
  have hquiet := hquiet₁.trans (hquiet₂.trans ((quiet_farJump 0#16 (img.relocation .realMode)).trans
    (quiet_setDataSegments 0#16)))
  have hreal' : protection (setDataSegments 0#16 (farJump 0#16 (img.relocation .realMode) u)) = false := by
    rw [protection_setDataSegments, protection_farJump, hreal]
  generalize setDataSegments 0#16 (farJump 0#16 (img.relocation .realMode) u) = v at hquiet hreal' ⊢
  -- `ret` reads the lower half of the return address
  have htop : (v.mem.load (S - 4) 2).setWidth 64 = next := by
    rw [hquiet.mem]
    exact h₁.top (by omega) (by omega)
  have hvrsp : v.cpu.regs .rsp = BitVec.ofNat 64 (S - 4) := (hquiet.regs .rsp (by decide)).trans h₁.rsp
  have hret : Landed next S v (ret 2 v) :=
    landed (n := 2) (codeBits_real hreal') hvrsp (by omega) hS htop
  have hreal'' : protection (ret 2 v) = false := hret.protection.trans hreal'
  generalize ret 2 v = t at hret hreal'' ⊢
  have houtside : ∀ x, x < S - 4 ∨ S ≤ x → t.mem x = s.mem x := by
    intro x hx
    rw [hret.mem, hquiet.mem, h₁.outside h4 x hx]
  have hregs : ∀ r, r ∉ scratch → r ≠ .rsp → t.cpu.regs r = s.cpu.regs r := by
    intro r hr hp
    rw [hret.regs r (ne_rip_of_not_scratch hr) hp, hquiet.regs r hr, h₁.regs r hp]
  exact ⟨t, run_continueAt hret.rip (codeBits_real hreal''),
    ⟨codeBits_real hreal'', hret.rsp, houtside⟩, hreal'', hregs .rbp (by decide) (by decide),
    hregs .rdi (by decide) (by decide)⟩

/-- what `and edi, 0xFFFF` makes of a register into which a word of 16 bits has been popped -/
theorem resize_16_and (old : BitVec 64) {v : BitVec 64} (hv : v.toNat < 2 ^ 16) :
    low 32 (resize 16 old v &&& 0xFFFF#64) = v := by
  have hmask : 0xFFFFFFFFFFFF0000#64 &&& 0xFFFF#64 = 0#64 := by decide
  have hlow : ∀ bits, low bits v = v := by
    intro bits
    have h := low_small bits hv
    rwa [BitVec.ofNat_toNat, BitVec.setWidth_eq] at h
  have h16 : v &&& 0xFFFF#64 = v := hlow 16
  have hand : resize 16 old v &&& 0xFFFF#64 = v := by
    show ((old &&& 0xFFFFFFFFFFFF0000#64) ||| (v &&& 0xFFFF#64)) &&& 0xFFFF#64 = v
    rw [BitVec.and_or_distrib_right, BitVec.and_assoc, hmask, BitVec.and_zero, BitVec.zero_or, h16, h16]
  rw [hand, hlow]

/-- the return address, kept in a register, goes back to the stack as a wider word -/
theorem pushBack_ret {n : ℕ} {r : Reg} (hr : r ≠ .rsp) (hb : r ≠ .rbp) (hbits : codeBits s = 8 * n)
    (hrsp : s.cpu.regs .rsp = BitVec.ofNat 64 S) (hn : n ≤ S) (hS : S < 2 ^ 16)
    (hnext : next.toNat < 2 ^ (8 * n)) : ∃ t,
    ret 0 (pushWord ((putReg r next s).cpu.regs r) (putReg r next s)) = t ∧
      t.cpu.regs .rip = next ∧ Back (8 * n) S n s t ∧ t.cpu.regs .rbp = s.cpu.regs .rbp := by
  have hword : (putReg r next s).cpu.regs r = next := by simp [putReg]
  have hrsp' : (putReg r next s).cpu.regs .rsp = BitVec.ofNat 64 S := by
    simpa [putReg, hr.symm] using hrsp
  have hrbp' : (putReg r next s).cpu.regs .rbp = s.cpu.regs .rbp := by simp [putReg, hb.symm]
  have h₁ := pushed next (s := putReg r next s) (n := n) hbits hrsp' hS hn
  have hbits₁ : codeBits (pushWord next (putReg r next s)) = 8 * n := h₁.codeBits.trans hbits
  have hret := landed (k := 0) hbits₁ h₁.rsp (by omega) hS (h₁.top le_rfl hnext)
  rw [hword]
  refine ⟨_, rfl, hret.rip, ⟨hret.bits.trans hbits₁, hret.rsp, fun x hx => ?_⟩, ?_⟩
  · rw [hret.mem]
    exact h₁.outside hn x hx
  · rw [hret.regs .rbp (by decide) (by decide), h₁.regs .rbp (by decide), hrbp']

/-- **a return address that is popped in one mode and pushed in another one, as a wider word** -/
theorem repushed {k n : ℕ} {r : Reg} {s₁ s₂ v : Machine} (h₁ : Pushed k S next s s₁)
    (h₂ : Popped k r (S - k) s₁ s₂) (hquiet : Quiet s₂ v) (hr : r ≠ .rsp) (hb : r ≠ .rbp)
    (hbits : codeBits v = 8 * n) (hk : k ≤ n) (hn : n ≤ S) (hS : S < 2 ^ 16)
    (hnext : next.toNat < 2 ^ (8 * n)) : ∃ t,
    ret 0 (pushWord ((putReg r next v).cpu.regs r) (putReg r next v)) = t ∧
      t.cpu.regs .rip = next ∧ Back (8 * n) S n s t ∧ t.cpu.regs .rbp = s.cpu.regs .rbp := by
  have hrsp : v.cpu.regs .rsp = BitVec.ofNat 64 S := by
    rw [hquiet.regs .rsp (by decide), h₂.rsp, Nat.sub_add_cancel (hk.trans hn)]
  obtain ⟨t, ht, hrip, hback, hrbp⟩ := pushBack_ret hr hb hbits hrsp hn hS hnext
  refine ⟨t, ht, hrip, ⟨hback.bits, hback.rsp, fun x hx => ?_⟩, ?_⟩
  · rw [hback.mem x hx, hquiet.mem, h₂.mem, h₁.outside (hk.trans hn) x (by omega)]
  · rw [hrbp, hquiet.regs .rbp (by decide), h₂.regs .rbp (by decide) hb.symm,
      h₁.regs .rbp (by decide)]

/-- the jump to `protected_mode` -/
theorem protectedMode_quiet (rip : BitVec 64) : ∃ t,
    farJump ia32CodeSegment rip (editCr0 (fun eax => eax ||| protectionEnable) (cli s)) = t ∧
      Quiet s t ∧ t.cpu.regs .rip = rip ∧ codeBits t = 32 ∧
      codeBits (setDataSegments ia32DataSegment t) = 32 := by
  have hbit : protectionEnable.getLsbD 0 = true := by decide
  have hprot : protection (farJump ia32CodeSegment rip
      (editCr0 (fun eax => eax ||| protectionEnable) (cli s))) = true := by
    rw [protection_farJump, protection_editCr0, BitVec.getLsbD_or, hbit, Bool.or_true]
  exact ⟨_, rfl, quiet_cli.trans ((quiet_editCr0 _).trans (quiet_farJump _ _)), rip_farJump _ _,
    codeBits_32 hprot rfl, codeBits_32 hprot rfl⟩

theorem call_realToProtected (hreal : protection s = false)
    (hrsp : s.cpu.regs .rsp = BitVec.ofNat 64 S) (h4 : 4 ≤ S) (hS : S < 2 ^ 16)
    (hnext : next.toNat < 2 ^ 16) :
    ∃ t, (call next 32 img.realToProtected).run ⟨s, es⟩ = .ret () ⟨t, es⟩ ∧ Back 32 S 4 s t ∧
      t.cpu.regs .rbp = s.cpu.regs .rbp := by
  have h₁ := pushed next (n := 2) (codeBits_real hreal) hrsp hS (by omega)
  have hreal₁ : protection (pushWord next s) = false := by
    rw [protection, h₁.cr0]
    exact hreal
  unfold call RealModeCode.realToProtected
  simp only [bind_assoc, run_instr_bind]
  generalize pushWord next s = s₁ at h₁ hreal₁ ⊢
  have h₂ := popped (n := 2) (r := .rdi) (codeBits_real hreal₁) h₁.rsp (by omega) (by decide)
  generalize popWord .rdi s₁ = s₂ at h₂ ⊢
  have hdi : s₂.cpu.regs .rdi = resize 16 (s₁.cpu.regs .rdi) next := by
    rw [h₂.word, h₁.top le_rfl (by omega)]
  obtain ⟨u, hu, hquiet₁, hurip, hubits, hbits₃⟩ := protectedMode_quiet (s := s₂)
    (img.relocation .protectedMode)
  rw [hu, run_continueAt_bind hurip hubits]
  simp only [run_instr_bind]
  have hquiet := hquiet₁.trans (quiet_setDataSegments ia32DataSegment)
  generalize setDataSegments ia32DataSegment u = v at hquiet hbits₃ ⊢
  -- the return address goes back to the stack, as a word of four bytes
  rw [hquiet.regs .rdi (by decide), hdi, resize_16_and _ (by omega)]
  obtain ⟨t, ht, hrip, hback, hrbp⟩ := repushed (n := 4) h₁ h₂ hquiet (by decide) (by decide) hbits₃
    (by omega) h4 hS (lt_trans hnext (by omega))
  rw [ht]
  exact ⟨t, run_continueAt hrip hback.bits, hback, hrbp⟩

theorem longModeActive_switched :
    longModeActive (editCr0 (fun eax => eax ||| pagingFlag)
      (editEfer (fun eax => eax ||| longModeFlag) (setCr3 ia32ePagingBase
        (editCr4 (fun eax => eax ||| paeFlag) s)))) = true := by
  have hpaging : pagingFlag.getLsbD 31 = true := by decide
  have hpae : paeFlag.getLsbD 5 = true := by decide
  have hlong : longModeFlag.getLsbD 8 = true := by decide
  have happend : ∀ edx eax : BitVec 32, BitVec.getLsbD (w := 64) (edx ++ eax) 8 = eax.getLsbD 8 :=
    fun _ _ => BitVec.getLsbD_append
  have hefer : ∀ t : Machine, ((editEfer (fun eax => eax ||| longModeFlag) t).cpu.msr
      msrIa32Efer).getLsbD 8 = true := by
    intro t
    have hupdate : (editEfer (fun eax => eax ||| longModeFlag) t).cpu.msr msrIa32Efer
        = (t.cpu.msr msrIa32Efer).extractLsb' 32 32
          ++ ((t.cpu.msr msrIa32Efer).extractLsb' 0 32 ||| longModeFlag) := by
      simp [editEfer, putReg]
    rw [hupdate, happend, BitVec.getLsbD_or, hlong, Bool.or_true]
  unfold longModeActive
  rw [Bool.and_eq_true, Bool.and_eq_true, msr_editCr0]
  refine ⟨⟨?_, ?_⟩, hefer _⟩
  · simp [editCr0, putReg, hpaging]
  · simp [editCr0, editEfer, setCr3, editCr4, putReg, hpae]

/-- the jump to `.long_mode` -/
theorem longMode_quiet (hprot : protection s = true) (rip : BitVec 64) : ∃ t,
    farJump ia32eCodeSegment rip (editCr0 (fun eax => eax ||| pagingFlag)
      (editEfer (fun eax => eax ||| longModeFlag) (setCr3 ia32ePagingBase
        (editCr4 (fun eax => eax ||| paeFlag) (editCr0 (fun eax => eax &&& ~~~ pagingFlag) s))))) = t ∧
      Quiet s t ∧ t.cpu.regs .rip = rip ∧ codeBits t = 64 ∧
      codeBits (setDataSegments ia32eDataSegment t) = 64 := by
  have hcr0 : s.cpu.cr0.getLsbD 0 = true := hprot
  have hprot' : protection (editCr0 (fun eax => eax ||| pagingFlag)
      (editEfer (fun eax => eax ||| longModeFlag) (setCr3 ia32ePagingBase
        (editCr4 (fun eax => eax ||| paeFlag) (editCr0 (fun eax => eax &&& ~~~ pagingFlag) s)))))
      = true := by
    rw [protection_editCr0]
    simp [editEfer, setCr3, editCr4, editCr0, putReg, hcr0]
  have hactive := longModeActive_switched (s := editCr0 (fun eax => eax &&& ~~~ pagingFlag) s)
  exact ⟨_, rfl, (quiet_editCr0 _).trans ((quiet_editCr4 _).trans ((quiet_setCr3 _).trans
      ((quiet_editEfer _).trans ((quiet_editCr0 _).trans (quiet_farJump _ _))))), rip_farJump _ _,
    codeBits_64 hprot' hactive rfl, codeBits_64 hprot' hactive rfl⟩

theorem call_protectedToLong (hbits : codeBits s = 32) (hrsp : s.cpu.regs .rsp = BitVec.ofNat 64 S)
    (h8 : 8 ≤ S) (hS : S < 2 ^ 16) (hnext : next.toNat < 2 ^ 16) :
    ∃ t, (call next 64 img.protectedToLongLowerMemory).run ⟨s, es⟩ = .ret () ⟨t, es⟩ ∧
      Back 64 S 8 s t ∧ t.cpu.regs .rbp = s.cpu.regs .rbp := by
  have hprot : protection s = true := protection_of_codeBits (by omega)
  have h₁ := pushed next (n := 4) hbits hrsp hS (by omega)
  unfold call RealModeCode.protectedToLongLowerMemory
  simp only [bind_assoc, run_instr_bind]
  generalize pushWord next s = s₁ at h₁ ⊢
  have h₂ := popped (n := 4) (r := .rsi) (h₁.codeBits.trans hbits) h₁.rsp (by omega) (by decide)
  generalize popWord .rsi s₁ = s₂ at h₂ ⊢
  have hsi : s₂.cpu.regs .rsi = next := by
    have hlow := low_small 32 (show next.toNat < 2 ^ 16 from hnext)
    rw [h₂.word, h₁.top le_rfl (by omega)]
    rwa [BitVec.ofNat_toNat, BitVec.setWidth_eq] at hlow
  have hprot₂ : protection s₂ = true := by
    rw [protection, h₂.cpu]
    exact (congrArg (fun v => v.getLsbD 0) h₁.cr0).trans hprot
  obtain ⟨u, hu, hquiet₁, hurip, hubits, hbits₃⟩ := longMode_quiet hprot₂ (img.relocation .longMode)
  rw [hu, run_continueAt_bind hurip hubits]
  simp only [run_instr_bind]
  have hquiet := hquiet₁.trans (quiet_setDataSegments ia32eDataSegment)
  generalize setDataSegments ia32eDataSegment u = v at hquiet hbits₃ ⊢
  -- the return address goes back to the stack, as a word of eight bytes
  have hones : next &&& 0xFFFFFFFFFFFFFFFF#64 = next := BitVec.and_allOnes
  rw [hquiet.regs .rsi (by decide), hsi, hones]
  obtain ⟨t, ht, hrip, hback, hrbp⟩ := repushed (n := 8) h₁ h₂ hquiet (by decide) (by decide) hbits₃
    (by omega) h8 hS (lt_trans hnext (by omega))
  rw [ht]
  exact ⟨t, run_continueAt hrip hback.bits, hback, hrbp⟩

/-! ## the callback -/

/-- a state in which the callback is entered from `s`, with its return address below `S` -/
structure EnteredFrom (S : ℕ) (s c : Machine) : Prop where
  rip : c.cpu.regs .rip = low 16 (s.cpu.regs .rdi)
  rsp : c.cpu.regs .rsp = BitVec.ofNat 64 (S - 2)
  rbp : c.cpu.regs .rbp = s.cpu.regs .rbp
  real : protection c = false
  mem : ∀ x, x < S - 2 ∨ S ≤ x → c.mem x = s.mem x

/-- **a callback that keeps its stack pointer and its return address comes back** -/
theorem call_callback (cb : Callback) (hreal : protection s = false)
    (hrsp : s.cpu.regs .rsp = BitVec.ofNat 64 S) (h2 : 2 ≤ S) (hS : S < 2 ^ 16)
    (hnext : next.toNat < 2 ^ 16) : ∃ c, EnteredFrom S s c ∧
      (protection (cb c) = false → (cb c).cpu.regs .rsp = c.cpu.regs .rsp →
        (∀ x, S - 2 ≤ x → x < S → (cb c).mem x = c.mem x) →
        ∃ t, (call next 16 (RealModeCode.callback cb)).run ⟨s, es⟩ = .ret () ⟨t, es ++ [c]⟩ ∧
          t.mem = (cb c).mem ∧ t.cpu.regs .rsp = BitVec.ofNat 64 S ∧ protection t = false ∧
          t.cpu.regs .rbp = (cb c).cpu.regs .rbp) := by
  have h₁ := pushed next (n := 2) (codeBits_real hreal) hrsp hS h2
  unfold call RealModeCode.callback
  simp only [bind_assoc, run_instr_bind]
  generalize pushWord next s = s₁ at h₁ ⊢
  have hreal₁ : protection s₁ = false := by
    rw [protection, h₁.cr0]
    exact hreal
  have hc : EnteredFrom S s (putReg .rip (low 16 (s₁.cpu.regs .rdi)) s₁) := by
    refine ⟨?_, ?_, ?_, hreal₁, h₁.outside h2⟩
    · simp [putReg, h₁.regs]
    · simpa [putReg] using h₁.rsp
    · simpa [putReg] using h₁.regs .rbp (by decide)
  have hcmem : (putReg .rip (low 16 (s₁.cpu.regs .rdi)) s₁).mem = s₁.mem := rfl
  generalize putReg .rip (low 16 (s₁.cpu.regs .rdi)) s₁ = c at hc hcmem ⊢
  refine ⟨c, hc, fun hstays hsp hkept => ?_⟩
  rw [bind_of_ret (run_modify _ _)]
  simp only [run_instr_bind]
  generalize cb c = d at hstays hsp hkept ⊢
  have htop : (d.mem.load (S - 2) 2).setWidth 64 = next := by
    have hload : d.mem.load (S - 2) 2 = s₁.mem.load (S - 2) 2 := by
      rw [← hcmem]
      exact Mem.load_congr fun k hk => hkept _ (by omega) (by omega)
    rw [hload]
    exact h₁.top le_rfl (by omega)
  have hret : Landed next S d (ret 0 d) :=
    landed (n := 2) (codeBits_real hstays) (hsp.trans hc.rsp) (by omega) hS htop
  have hstays' : protection (ret 0 d) = false := hret.protection.trans hstays
  generalize ret 0 d = t at hret hstays' ⊢
  exact ⟨t, run_continueAt hret.rip (codeBits_real hstays'), hret.mem, hret.rsp, hstays',
    hret.regs .rbp (by decide) (by decide)⟩

/-! ## the path -/

theorem callRealModeFunction_runs (cb : Callback) (hbits : codeBits s = 64)
    (hrsp : s.cpu.regs .rsp = BitVec.ofNat 64 S) (h24 : 24 ≤ S) (hS : S + 8 < 2 ^ 16)
    (hrdi : (s.cpu.regs .rdi).toNat < 2 ^ 16) (hrbp : (s.cpu.regs .rbp).toNat < 2 ^ 32) :
    ∃ c, (c.cpu.regs .rip = s.cpu.regs .rdi ∧ c.cpu.regs .rsp = BitVec.ofNat 64 (S - 2) ∧
        c.cpu.regs .rbp = s.cpu.regs .rbp ∧ protection c = false ∧
        ∀ x, x < S - 24 ∨ S ≤ x → c.mem x = s.mem x) ∧
      (protection (cb c) = false → (cb c).cpu.regs .rsp = c.cpu.regs .rsp →
        (∀ x, S - 2 ≤ x → x < S + 8 → (cb c).mem x = c.mem x) →
        ∃ t, (img.callRealModeFunction cb).run ⟨s, es⟩ = .ret () ⟨t, es ++ [c]⟩ ∧
          codeBits t = 64 ∧ t.cpu.regs .rip = s.mem.load64 S ∧
          t.cpu.regs .rsp = BitVec.ofNat 64 (S + 8) ∧ t.cpu.regs .rbp = (cb c).cpu.regs .rbp ∧
          ∀ x, x < S - 8 ∨ S ≤ x → t.mem x = (cb c).mem x) := by
  obtain ⟨s₁, hrun₁, hback₁, hrbp₁, hrdi₁⟩ := call_longToProtected img es hbits hrsp h24
    (by omega) (img.relocation_lt .behindLongToProtected)
  obtain ⟨s₂, hrun₂, hback₂, hreal₂, hrbp₂, hrdi₂⟩ := call_protectedToReal img es
    hback₁.bits hback₁.rsp (by omega) (by omega) (img.relocation_lt .behindProtectedToReal)
  obtain ⟨c, hc, hcallback⟩ := call_callback es cb hreal₂ hback₂.rsp (by omega) (by omega)
    (img.relocation_lt .behindCallback)
  have hdi : dropUpper img.upper (s.cpu.regs .rdi) = s.cpu.regs .rdi :=
    dropUpper_low img.upper_zero (by omega)
  have hbp : dropUpper img.upper (s.cpu.regs .rbp) = s.cpu.regs .rbp :=
    dropUpper_low img.upper_zero hrbp
  have hcrip : c.cpu.regs .rip = s.cpu.regs .rdi := by
    have h := low_small 16 hrdi
    rw [hc.rip, hrdi₂, hrdi₁, hdi]
    rwa [BitVec.ofNat_toNat, BitVec.setWidth_eq] at h
  have hcmem : ∀ x, x < S - 24 ∨ S ≤ x → c.mem x = s.mem x := by
    intro x hx
    rw [hc.mem x (by omega), hback₂.mem x (by omega), hback₁.mem x hx]
  refine ⟨c, ⟨hcrip, hc.rsp, by rw [hc.rbp, hrbp₂, hrbp₁, hbp], hc.real, hcmem⟩,
    fun hstays hsp hkept => ?_⟩
  obtain ⟨s₃, hrun₃, hmem₃, hrsp₃, hreal₃, hrbp₃⟩ := hcallback hstays hsp
    fun x hlo hhi => hkept x hlo (by omega)
  obtain ⟨s₄, hrun₄, hback₄, hrbp₄⟩ := call_realToProtected img (es ++ [c]) hreal₃ hrsp₃
    (by omega) (by omega) (img.relocation_lt .behindRealToProtected)
  obtain ⟨s₅, hrun₅, hback₅, hrbp₅⟩ := call_protectedToLong img (es ++ [c]) hback₄.bits
    hback₄.rsp (by omega) (by omega) (img.relocation_lt .behindProtectedToLong)
  have hmem₅ : ∀ x, x < S - 8 ∨ S ≤ x → s₅.mem x = (cb c).mem x := by
    intro x hx
    rw [hback₅.mem x hx, hback₄.mem x (by omega), hmem₃]
  have htop : (s₅.mem.load S 8).setWidth 64 = s.mem.load64 S := by
    have hload : s₅.mem.load S 8 = s.mem.load S 8 := Mem.load_congr fun k hk => by
      rw [hmem₅ _ (by omega), hkept _ (by omega) (by omega), hcmem _ (by omega)]
    rw [hload]
    exact BitVec.setWidth_eq _
  have hret : Landed (s.mem.load64 S) (S + 8) s₅ (ret 0 s₅) :=
    landed (n := 8) hback₅.bits hback₅.rsp rfl hS htop
  refine ⟨ret 0 s₅, ?_, hret.bits.trans hback₅.bits, hret.rip, hret.rsp, ?_, fun x hx => ?_⟩
  · rw [RealModeCode.callRealModeFunction, bind_of_ret hrun₁, bind_of_ret hrun₂, bind_of_ret hrun₃,
      bind_of_ret hrun₄, bind_of_ret hrun₅, run_instr]
  · rw [hret.regs .rbp (by decide) (by decide), hrbp₅, hrbp₄, hrbp₃]
  · rw [hret.mem, hmem₅ x hx]

end

end HyperC.Bios
