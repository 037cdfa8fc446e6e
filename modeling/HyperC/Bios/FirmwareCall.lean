import HyperC.Bios.Firmware

/-!
# Calls of the firmware

* `RealModeCode.callBack`   the call `real_mode_callback(f)`;
* `realModeCallback_split`   the path through the modes without its callback, which is entered with the
                          segments of data and stack at zero (`zero_toRealMode`);
* `callback_runs`         so a callback has to behave in the state it is entered in only;
* `callBack_runs`         a callback that leaves alone what is not the firmware's returns to the host.
-/

namespace HyperC.Bios
open Code

/-- `real_mode_callback(f)`, from its call to the instruction behind it -/
def RealModeCode.callBack (img : RealModeCode) (f next : BitVec 64) (cb : Callback) : Code Path Unit := do
  instr (putReg .rdi f)
  call next 64 (img.realModeCallback cb)

/-! ## the path without its callback -/

namespace RealModeCode
variable (img : RealModeCode)

def toRealMode : Code Path Unit := do
  instr fun s => pushWord (s.cpu.regs .rbp) s
  instr fun s => putReg .rbp (s.cpu.regs .rsp) s
  instr (putReg .rsp (BitVec.ofNat 64 lowerMemoryStackTop))
  instr fun s => putReg .rdi (s.cpu.regs .rdi - BitVec.ofNat 64 img.realModeStart) s
  instr fun s => putReg .rdi (s.cpu.regs .rdi + BitVec.ofNat 64 realModeBaseAddress) s
  instr (putReg .rax (img.relocation .callRealModeFunction))
  instr (pushWord img.behindCall)
  instr fun s => putReg .rip (s.cpu.regs .rax) s
  continueAt (img.relocation .callRealModeFunction) 64
  call (img.relocation .behindLongToProtected) 32 img.longToProtected
  call (img.relocation .behindProtectedToReal) 16 img.protectedToReal
  instr (pushWord (img.relocation .behindCallback))

def toLongMode : Code Path Unit := do
  continueAt (img.relocation .behindCallback) 16
  call (img.relocation .behindRealToProtected) 32 img.realToProtected
  call (img.relocation .behindProtectedToLong) 64 img.protectedToLongLowerMemory
  instr (ret 0)
  continueAt img.behindCall 64
  instr fun s => putReg .rsp (s.cpu.regs .rbp) s
  instr (popWord .rbp)
  instr (ret 0)

theorem realModeCallback_split (cb : Callback) : img.realModeCallback cb
    = (img.toRealMode >>= fun _ => callback cb >>= fun _ => img.toLongMode) := by
  simp only [realModeCallback, toRealMode, toLongMode, callRealModeFunction, call, bind_assoc]

end RealModeCode

/-- the code leaves the entries alone -/
theorem entries_instr (f : Machine → Machine) : Keeps Path.entries (instr f) := fun _ => rfl

theorem entries_continueAt (rip : BitVec 64) (bits : ℕ) : Keeps Path.entries (continueAt rip bits) :=
  Keeps.bind (Keeps.gets _ _) fun _ => Keeps.ite (Keeps.pure _ _) (Keeps.leave fun _ => rfl)

theorem entries_call {body : Code Path Unit} (h : Keeps Path.entries body) (next : BitVec 64)
    (bits : ℕ) : Keeps Path.entries (call next bits body) :=
  (entries_instr _).bind fun _ => h.bind fun _ => entries_continueAt _ _

section
variable (img : RealModeCode)

theorem entries_toRealMode : Keeps Path.entries img.toRealMode := by
  unfold RealModeCode.toRealMode
  iterate 8 refine (entries_instr _).bind fun _ => ?_
  refine (entries_continueAt _ _).bind fun _ => Keeps.bind (entries_call ?_ _ _) fun _ =>
    Keeps.bind (entries_call ?_ _ _) fun _ => entries_instr _
  · unfold RealModeCode.longToProtected
    iterate 3 refine (entries_instr _).bind fun _ => ?_
    refine (entries_continueAt _ _).bind fun _ => ?_
    iterate 4 refine (entries_instr _).bind fun _ => ?_
    exact entries_instr _
  · unfold RealModeCode.protectedToReal
    iterate 2 refine (entries_instr _).bind fun _ => ?_
    refine (entries_continueAt _ _).bind fun _ => ?_
    iterate 4 refine (entries_instr _).bind fun _ => ?_
    refine (entries_continueAt _ _).bind fun _ => ?_
    exact (entries_instr _).bind fun _ => entries_instr _

theorem entries_toLongMode : Keeps Path.entries img.toLongMode := by
  unfold RealModeCode.toLongMode
  refine (entries_continueAt _ _).bind fun _ => Keeps.bind (entries_call ?_ _ _) fun _ =>
    Keeps.bind (entries_call ?_ _ _) fun _ => (entries_instr _).bind fun _ =>
      (entries_continueAt _ _).bind fun _ => (entries_instr _).bind fun _ =>
        (entries_instr _).bind fun _ => entries_instr _
  · unfold RealModeCode.realToProtected
    iterate 4 refine (entries_instr _).bind fun _ => ?_
    refine (entries_continueAt _ _).bind fun _ => ?_
    iterate 3 refine (entries_instr _).bind fun _ => ?_
    exact entries_instr _
  · unfold RealModeCode.protectedToLongLowerMemory
    iterate 7 refine (entries_instr _).bind fun _ => ?_
    refine (entries_continueAt _ _).bind fun _ => ?_
    iterate 3 refine (entries_instr _).bind fun _ => ?_
    exact entries_instr _

/-- the addresses of data and of the stack are offsets -/
structure ZeroSegments (s : Machine) : Prop where
  ds : s.cpu.ds = 0#16
  ss : s.cpu.ss = 0#16

instance (s : Machine) : Decidable (ZeroSegments s) :=
  decidable_of_iff (s.cpu.ds = 0#16 ∧ s.cpu.ss = 0#16) ⟨fun h => ⟨h.1, h.2⟩, fun h => ⟨h.ds, h.ss⟩⟩

/-- the code returns only with these segments at zero -/
def EndsAtZero (x : Code Path Unit) : Prop := ∀ p p', x.run p = .ret () p' → ZeroSegments p'.machine

theorem EndsAtZero.after {α : Type} {x : Code Path α} {f : α → Code Path Unit} (h : ∀ a, EndsAtZero (f a)) :
    EndsAtZero (x >>= f) := by
  intro p p' hrun
  obtain ⟨a, q, -, hf⟩ := bind_eq_ret.mp hrun
  exact h a q p' hf

theorem EndsAtZero.before {x y : Code Path Unit} (h : EndsAtZero x)
    (hy : Keeps (fun p : Path => (p.machine.cpu.ds, p.machine.cpu.ss)) y) :
    EndsAtZero (x >>= fun _ => y) := by
  intro p p' hrun
  obtain ⟨a, q, hx, hrest⟩ := bind_eq_ret.mp hrun
  have hkept := Prod.ext_iff.mp (hy.of_ret hrest)
  have hzero := h p q hx
  exact ⟨hkept.1.trans hzero.ds, hkept.2.trans hzero.ss⟩

theorem segments_continueAt (rip : BitVec 64) (bits : ℕ) :
    Keeps (fun p : Path => (p.machine.cpu.ds, p.machine.cpu.ss)) (continueAt rip bits) :=
  Keeps.bind (Keeps.gets _ _) fun _ => Keeps.ite (Keeps.pure _ _) (Keeps.leave fun _ => rfl)

/-- **the callback is called with the segments at zero** -/
theorem zero_toRealMode : EndsAtZero img.toRealMode := by
  have hreal : EndsAtZero img.protectedToReal := by
    unfold RealModeCode.protectedToReal
    iterate 8 refine EndsAtZero.after fun _ => ?_
    intro p p' hrun
    cases hrun
    exact ⟨rfl, rfl⟩
  have hcall : EndsAtZero (call (img.relocation .behindProtectedToReal) 16 img.protectedToReal) :=
    EndsAtZero.after fun _ => hreal.before (segments_continueAt _ _)
  unfold RealModeCode.toRealMode
  iterate 10 refine EndsAtZero.after fun _ => ?_
  exact hcall.before fun _ => rfl

/-- the runs of the path: the callback is entered once -/
theorem realModeCallback_inv {img : RealModeCode} {cb : Callback} {s t c : Machine}
    (h : (img.realModeCallback cb).run ⟨s, []⟩ = .ret () ⟨t, [c]⟩) : ZeroSegments c ∧
      ∀ cb' : Callback, cb' c = cb c → (img.realModeCallback cb').run ⟨s, []⟩ = .ret () ⟨t, [c]⟩ := by
  rw [RealModeCode.realModeCallback_split] at h
  obtain ⟨⟨⟩, ⟨u, es⟩, hto, hrest⟩ := bind_eq_ret.mp h
  have hes : es = [] := (entries_toRealMode img).of_ret hto
  subst hes
  obtain ⟨⟨⟩, ⟨v, es⟩, hcallback, hback⟩ := bind_eq_ret.mp hrest
  have hkept : [c] = es := (entries_toLongMode img).of_ret hback
  have hrun : (RealModeCode.callback cb).run ⟨u, []⟩
      = .ret () ⟨ret 0 (cb (putReg .rip (low 16 (u.cpu.regs .rdi)) u)),
        [putReg .rip (low 16 (u.cpu.regs .rdi)) u]⟩ := rfl
  rw [hrun] at hcallback
  cases hcallback
  obtain rfl : c = putReg .rip (low 16 (u.cpu.regs .rdi)) u := List.singleton_inj.mp hkept
  have hzero : ZeroSegments u := zero_toRealMode img _ _ hto
  refine ⟨⟨hzero.ds, hzero.ss⟩, fun cb' heq => ?_⟩
  rw [RealModeCode.realModeCallback_split, bind_of_ret hto]
  have hrun' : (RealModeCode.callback cb').run ⟨u, []⟩
      = .ret () ⟨ret 0 (cb' (putReg .rip (low 16 (u.cpu.regs .rdi)) u)),
        [putReg .rip (low 16 (u.cpu.regs .rdi)) u]⟩ := rfl
  rw [bind_of_ret hrun', heq]
  exact hback

end

/-! ## calls -/

/-- what the compiled functions use of the stack at most -/
def hostFrames : ℕ := 0x1000

/-- the host runs 64-bit code on a stack above 1 MiB -/
structure HostCode (s : Machine) : Prop where
  bits : codeBits s = 64
  above : 0x100000 + hostFrames ≤ (s.cpu.regs .rsp).toNat
  rsp_lt : (s.cpu.regs .rsp).toNat < 2 ^ 32
  rbp_lt : (s.cpu.regs .rbp).toNat < 2 ^ 32

/-- the bytes that the switches and the call write -/
def Traffic (s : Machine) (x : ℕ) : Prop :=
  (lowerMemoryStackTop - 32 ≤ x ∧ x < lowerMemoryStackTop) ∨
    ((s.cpu.regs .rsp).toNat - 16 ≤ x ∧ x < (s.cpu.regs .rsp).toNat)

/-- the callback is entered -/
structure AtCallback (s c : Machine) : Prop where
  real : protection c = false
  zero : ZeroSegments c
  sp : stackPointer c = lowerMemoryStackTop - 10
  mem : ∀ x, ¬ Traffic s x → c.mem x = s.mem x

/-- the call has returned -/
structure Returned (next : BitVec 64) (s t : Machine) : Prop where
  bits : codeBits t = 64
  rip : t.cpu.regs .rip = next
  rsp : t.cpu.regs .rsp = s.cpu.regs .rsp
  rbp : t.cpu.regs .rbp = s.cpu.regs .rbp

theorem Returned.hostCode {next : BitVec 64} {s t : Machine} (h : Returned next s t) (hs : HostCode s) :
    HostCode t :=
  ⟨h.bits, by rw [h.rsp]; exact hs.above, by rw [h.rsp]; exact hs.rsp_lt, by rw [h.rbp]; exact hs.rbp_lt⟩

section
variable {img : RealModeCode} {cb : Callback} {s : Machine} {fw : Firmware} {mine : ℕ → Prop}

theorem LeavesCaller.congr {cb' : Callback} {c : Machine} (h : LeavesCaller cb s c) (heq : cb' c = cb c) :
    LeavesCaller cb' s c := by
  obtain ⟨⟨hreal, hcs, hss, hsp, hbp, hback⟩, hrsp, hrbp, hstack, hframe⟩ := h
  rw [← heq] at hreal hcs hss hsp hbp hback hrsp hrbp hstack hframe
  exact ⟨⟨hreal, hcs, hss, hsp, hbp, hback⟩, hrsp, hrbp, hstack, hframe⟩

theorem leavesCaller_id (c : Machine) (h : Entered img s c) : LeavesCaller id s c :=
  ⟨⟨h.real, rfl, rfl, rfl, rfl, fun _ _ _ => rfl⟩, rfl, rfl, fun _ _ _ => rfl, fun _ _ _ => rfl⟩

/-- **a callback has to behave where the segments are zero only** -/
theorem callback_runs (h : Called img s) (hapart : FrameApart s)
    (hcb : ∀ c, Entered img s c → ZeroSegments c → LeavesCaller cb s c) : ∃ c t,
    (img.realModeCallback cb).run ⟨s, []⟩ = .ret () ⟨t, [c]⟩ ∧ Entered img s c ∧ ZeroSegments c ∧
      Restored s t ∧ ∀ x, ¬ OnStack s x → t.mem x = (cb c).mem x := by
  -- a callback that does nothing elsewhere takes the same path
  let guarded : Callback := fun c => if ZeroSegments c then cb c else c
  have hguarded : ∀ c, Entered img s c → LeavesCaller guarded s c := by
    intro c hc
    by_cases hzero : ZeroSegments c
    · exact (hcb c hc hzero).congr (if_pos hzero)
    · exact (leavesCaller_id c hc).congr (if_neg hzero)
  obtain ⟨s₁, hframed, hrun⟩ := framed h hapart.1
  obtain ⟨c, hc, hreturn⟩ := hframed.called guarded h hapart
  obtain ⟨u, hcall, hbits, hrbp, hsaved, hret, hmem⟩ := hreturn (hguarded c hc)
  obtain ⟨t, hleave, htbits, htrip, htrsp, htrbp, htmem⟩ := leave_ret hbits hrbp hapart.1
  have hpath : (img.realModeCallback guarded).run ⟨s, []⟩ = .ret () ⟨t, [c]⟩ := by
    unfold RealModeCode.realModeCallback
    rw [hrun, bind_of_ret hcall]
    simp only [run_instr_bind, run_instr]
    rw [hleave]
  obtain ⟨hzero, hsame⟩ := realModeCallback_inv hpath
  have heq : cb c = guarded c := (if_pos hzero).symm
  refine ⟨c, t, hsame cb heq, hc, hzero, ⟨htbits, htrip.trans hret, htrsp, htrbp.trans hsaved⟩,
    fun x hx => ?_⟩
  rw [htmem, hmem x hx, heq]

/-- a callback that leaves alone what is not the firmware's, and writes to the first MiB only -/
theorem leavesCaller_of_rest {c : Machine} (hc : Entered img s c) (habove : 0x100008 ≤ (s.cpu.regs .rsp).toNat)
    (hmine : ∀ x, mine x → lowerMemoryStackTop ≤ x ∧ x < 0x100000)
    (h : fw.LeavesRest mine c (cb c)) : LeavesCaller cb s c := by
  have htop : lowerMemoryStackTop = 0x7BFF := rfl
  have hsp : stackPointer c = lowerMemoryStackTop - 10 := by
    rw [stackPointer_real hc.real, hc.rsp]
    rfl
  have hkept : ∀ x, (lowerMemoryStackTop - 10 ≤ x ∧ x < lowerMemoryStackTop) ∨ 0x100000 ≤ x →
      (cb c).mem x = c.mem x := by
    intro x hx
    refine h.mem x (fun hown => ?_) fun hm => ?_
    · rw [Firmware.Owns, hsp] at hown
      omega
    · have hrange := hmine x hm
      omega
  exact ⟨⟨h.real, h.cs, h.ss, by rw [h.rsp], by rw [h.rbp], fun x hlo hhi => hkept x (by omega)⟩, h.rsp, h.rbp,
    fun x hlo hhi => hkept x (by omega), fun x hlo hhi => hkept x (by omega)⟩

theorem AtCallback.ready {c : Machine} (hc : AtCallback s c) : fw.Ready c where
  real := hc.real
  ss := hc.zero.ss
  room := by
    have hdepth := fw.depth_le
    rw [hc.sp]
    exact hdepth.trans (by decide)

/-- **a callback for the firmware returns to the host** -/
theorem callBack_runs (f next : BitVec 64) (hs : HostCode s) (hnext : next.toNat < 2 ^ 32)
    (hle : img.realModeStart ≤ f.toNat) (hlt : f.toNat < img.realModeStart + img.size)
    (hmine : ∀ x, mine x → lowerMemoryStackTop ≤ x ∧ x < 0x100000)
    (hcb : ∀ c, AtCallback s c → fw.LeavesRest mine c (cb c)) : ∃ c t,
    (img.callBack f next cb).run ⟨s, []⟩ = .ret () ⟨t, [c]⟩ ∧ AtCallback s c ∧ Returned next s t ∧
      ∀ x, ¬ Traffic s x → t.mem x = (cb c).mem x := by
  have habove := hs.above
  have hframes : hostFrames = 0x1000 := rfl
  have htop : lowerMemoryStackTop = 0x7BFF := rfl
  have hrsp : (s.cpu.regs .rsp - 8#64).toNat = (s.cpu.regs .rsp).toNat - 8 := by
    rw [BitVec.toNat_sub, BitVec.toNat_ofNat]
    omega
  -- the state behind the call instruction
  obtain ⟨u, hpush, hbits, hursp, hurbp, hurdi, humem⟩ : ∃ u, pushWord next (putReg .rdi f s) = u ∧
      codeBits u = 64 ∧ u.cpu.regs .rsp = s.cpu.regs .rsp - 8#64 ∧ u.cpu.regs .rbp = s.cpu.regs .rbp ∧
      u.cpu.regs .rdi = f ∧ u.mem = s.mem.store64 ((s.cpu.regs .rsp).toNat - 8) next := by
    refine ⟨_, rfl, ?_⟩
    rw [pushWord_64 (s := putReg .rdi f s) hs.bits]
    refine ⟨hs.bits, by simp [putReg], by simp [putReg], by simp [putReg], ?_⟩
    show s.mem.store64 ((putReg .rdi f s).cpu.regs .rsp - 8#64).toNat next = _
    rw [← hrsp]
    simp [putReg]
  have hreturn : u.mem.load64 (u.cpu.regs .rsp).toNat = next := by
    rw [hursp, hrsp, humem]
    exact Mem.load64_store64_same _ _ _
  have hcalled : Called img u := by
    refine ⟨hbits, ?_, ?_, ?_, ?_, ?_⟩
    · rw [hursp, hrsp]
      exact Nat.lt_of_le_of_lt (Nat.sub_le _ _) hs.rsp_lt
    · rw [hurbp]
      exact hs.rbp_lt
    · rw [hreturn]
      exact hnext
    · rw [hurdi]
      exact hle
    · rw [hurdi]
      exact hlt
  have hurspNat : (u.cpu.regs .rsp).toNat = (s.cpu.regs .rsp).toNat - 8 := by rw [hursp, hrsp]
  have hapart : FrameApart u := ⟨by omega, .inr (by omega)⟩
  have hstack : ∀ x, ¬ Traffic s x → ¬ OnStack u x ∧ u.mem x = s.mem x := by
    intro x hx
    rw [Traffic] at hx
    rw [OnStack, hurspNat, humem]
    exact ⟨by omega, Mem.store64_outside _ _ _ _ (by omega)⟩
  have hat : ∀ c, Entered img u c → ZeroSegments c → AtCallback s c := by
    intro c hc hzero
    refine ⟨hc.real, hzero, ?_, fun x hx => ?_⟩
    · rw [stackPointer_real hc.real, hc.rsp]
      rfl
    · rw [hc.mem x (hstack x hx).1, (hstack x hx).2]
  obtain ⟨c, t, hrun, hc, hzero, hrest, hmem⟩ := callback_runs hcalled hapart fun c hc hzero =>
    leavesCaller_of_rest hc (by omega) hmine (hcb c (hat c hc hzero))
  have hret : Returned next s t := by
    refine ⟨hrest.bits, hrest.rip.trans hreturn, ?_, hrest.rbp.trans hurbp⟩
    rw [hrest.rsp, hursp]
    exact BitVec.sub_add_cancel _ _
  refine ⟨c, t, ?_, hat c hc hzero, hret, fun x hx => hmem x (hstack x hx).1⟩
  unfold RealModeCode.callBack call
  rw [run_instr_bind, run_instr_bind, hpush, bind_of_ret hrun]
  exact run_continueAt hret.rip hret.bits

end

end HyperC.Bios
