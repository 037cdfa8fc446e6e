import HyperC.Guest.Gates

/-!
# Where `__sysenter` comes back

`__sysenter_handler` calls the return address of its caller instead of returning to it, from the
stack `kernel_stack` and with its own frame pointer.

* `sysenter_comes_back`   so it goes on there, below the end of `kernel_stack`, wherever the stack of
                          the caller is;
* `gates_return_iff`      both gates return like a call exactly if the caller's stack is there too.
-/

namespace HyperC
open Code

section
variable {img : Gates} {s : Machine}

def afterSysenter (img : Gates) (s : Machine) : Machine :=
  let cs := (s.cpu.msr msrIa32SysenterCs).setWidth 16 &&& 0xFFFC#16
  { s with
    mem := s.mem.store64 img.sysenterRsp (s.cpu.regs .rsp)
    cpu := { s.cpu with
      regs := Function.update (Function.update s.cpu.regs .rsp (BitVec.ofNat 64 img.stackEnd))
        .rip img.sysenterHandlerAt
      rflags := s.cpu.rflags &&& ~~~ 0x20200#64
      cs := cs
      ss := cs + 8#16 } }

theorem afterSysenter_rsp : ((afterSysenter img s).cpu.regs .rsp).toNat = img.stackEnd := by
  have hlt : img.stackEnd < 2 ^ 64 := img.stack_lt
  have hrsp : (afterSysenter img s).cpu.regs .rsp = BitVec.ofNat 64 img.stackEnd := by
    simp [afterSysenter]
  rw [hrsp, BitVec.toNat_ofNat, Nat.mod_eq_of_lt hlt]

theorem afterSysenter_reg {r : Reg} (h : r ≠ .rsp) (h' : r ≠ .rip) :
    (afterSysenter img s).cpu.regs r = s.cpu.regs r := by
  simp [afterSysenter, h, h']

theorem run_sysenter (h : GateMsrs img s) : img.sysenter.run (Guest.init s)
    = img.sysenterHandler.run ⟨afterSysenter img s, [], []⟩ := by
  have hstep : (onMachine stepSysenter).run
      ⟨{ s with mem := s.mem.store64 img.sysenterRsp (s.cpu.regs .rsp) }, [], []⟩
      = .ret () ⟨afterSysenter img s, [], []⟩ := by
    refine run_onMachine ?_
    unfold stepSysenter
    rw [bind_of_ret (run_gets _ _), if_neg h.selector, run_modify]
    simp only [h.eip, h.esp, afterSysenter]
  have hrip : (afterSysenter img s).cpu.regs .rip = img.sysenterHandlerAt := by
    simp [afterSysenter]
  have hmov : (step fun s => { s with mem := s.mem.store64 img.sysenterRsp (s.cpu.regs .rsp) }).run
      (Guest.init s) = .ret () ⟨{ s with mem := s.mem.store64 img.sysenterRsp (s.cpu.regs .rsp) },
        [], []⟩ := run_step _
  unfold Gates.sysenter
  rw [bind_of_ret hmov, bind_of_ret hstep]
  unfold Gates.enter
  rw [bind_of_ret (run_getReg .rip), if_pos hrip]

/-- the machine when a function is entered that is called with the argument `v` -/
def callWith (next v : BitVec 64) (s : Machine) : Machine :=
  pushQword next (withRegs s (Function.update s.cpu.regs .rdi v))

section
variable {next v : BitVec 64}

theorem callWith_rsp : (callWith next v s).cpu.regs .rsp = s.cpu.regs .rsp - 8#64 := by
  simp [callWith, pushQword, withRegs]

theorem callWith_reg {r : Reg} (h : r ≠ .rsp) (h' : r ≠ .rdi) :
    (callWith next v s).cpu.regs r = s.cpu.regs r := by
  simp [callWith, pushQword, withRegs, h, h']

theorem callWith_edi (n : BitVec 32) : edi (callWith next (n.setWidth 64) s) = n := by
  simp [edi, callWith, pushQword, withRegs]

theorem callWith_sameOn (h : 8 ≤ (s.cpu.regs .rsp).toNat) {a b : ℕ}
    (hab : b + 8 ≤ (s.cpu.regs .rsp).toNat ∨ (s.cpu.regs .rsp).toNat ≤ a) :
    s.mem.SameOn (callWith next v s).mem a b := by
  have hrsp : (withRegs s (Function.update s.cpu.regs .rdi v)).cpu.regs .rsp = s.cpu.regs .rsp := by
    simp [withRegs]
  have hpush := pushQword_sameOn (s := withRegs s (Function.update s.cpu.regs .rdi v))
    (a := a) (b := b) next
  rw [hrsp] at hpush
  exact hpush h hab

theorem run_setArgument (v : BitVec 64) (g : Guest) : (onMachine (setReg .rdi v)).run g
    = .ret () ⟨withRegs g.machine (Function.update g.machine.cpu.regs .rdi v), g.reads, g.invoked⟩ := rfl

end

/-- the stack of `__sysenter_handler` when `dispatch_handler` is entered -/
def sysenterStack (img : Gates) (n : BitVec 32) (s : Machine) : Machine :=
  pushQword img.behindDispatchC (withRegs s (Function.update s.cpu.regs .rdi (n.setWidth 64)))

theorem sysenterStack_rsp (n : BitVec 32) :
    (sysenterStack img n s).cpu.regs .rsp = s.cpu.regs .rsp - 8#64 := callWith_rsp

theorem sysenterStack_reg (n : BitVec 32) {r : Reg} (h : r ≠ .rsp) (h' : r ≠ .rdi) :
    (sysenterStack img n s).cpu.regs r = s.cpu.regs r := callWith_reg h h'

theorem sysenterStack_edi (n : BitVec 32) : edi (sysenterStack img n s) = n := callWith_edi n

theorem sysenterStack_sameOn (n : BitVec 32) (h : 8 ≤ (s.cpu.regs .rsp).toNat) {a b : ℕ}
    (hab : b + 8 ≤ (s.cpu.regs .rsp).toNat ∨ (s.cpu.regs .rsp).toNat ≤ a) :
    s.mem.SameOn (sysenterStack img n s).mem a b := callWith_sameOn h hab

/-- the machine `t'` after the call of `dispatch_handler` from the body of `__sysenter_handler`, which
started in `t` -/
structure SysenterDispatched (img : Gates) (s t t' : Machine) : Prop where
  rsp : t'.cpu.regs .rsp = t.cpu.regs .rsp
  saved : ∀ r, calleeSaved r → r ≠ .rsp → t'.cpu.regs r = t.cpu.regs r
  cell : t'.mem.load64 img.sysenterRsp = s.cpu.regs .rsp
  slot : (s.cpu.regs .rsp).toNat + img.sysenterLocals + 24 = img.stackEnd →
    t'.mem.load64 (s.cpu.regs .rsp).toNat = t.cpu.regs .rbp

theorem sysenter_dispatched {t : Machine} (he : Entered img img.sysenterLocals (afterSysenter img s) t)
    (hconv : HandlersObey img s) :
    ∃ g, (callFunction img.behindDispatchC img.dispatchHandler).run
        ⟨withRegs t (Function.update t.cpu.regs .rdi ((edi s).setWidth 64)), [], []⟩ = .ret () g ∧
      g.invoked = dispatched s.mem (edi s) ∧ SysenterDispatched img s t g.machine := by
  obtain ⟨hsize, hend, hlt, hfits⟩ := img.stack_bounds
  have htable := img.stack_table
  have hcell := img.cell_stack
  have hcelltable := img.cell_table
  have hrsp₀ : ((afterSysenter img s).cpu.regs .rsp).toNat = img.stackEnd := afterSysenter_rsp
  have hrsp := he.rsp
  rw [hrsp₀] at hrsp
  have hpush := toNat_sub_of_le (x := t.cpu.regs .rsp) (n := 8) (by omega)
  have hstack : ∀ a b, (b ≤ img.kernelStack ∨ img.stackEnd ≤ a) →
      (afterSysenter img s).mem.SameOn (sysenterStack img (edi s) t).mem a b := by
    intro a b h
    exact (he.mem a b (by rw [hrsp₀]; omega)).trans (sysenterStack_sameOn _ (by omega) (by omega))
  have hd : dispatched (sysenterStack img (edi s) t).mem (edi s) = dispatched s.mem (edi s) := by
    have hstore : s.mem.SameOn (afterSysenter img s).mem ssdtAddress
        (ssdtAddress + 8 * ssdtSize + 8) := Mem.SameOn.store64 _ _ (by omega)
    exact dispatched_congr (hstore.trans (hstack _ _ (by omega)))
  have hsp : (sysenterStack img (edi s) t).cpu.regs .rsp = t.cpu.regs .rsp - 8#64 :=
    sysenterStack_rsp (edi s)
  have hentered : ∀ u, img.HandlerEntered ((sysenterStack img (edi s) t).cpu.regs .rsp).toNat
      (16 + img.dispatchLocals) (sysenterStack img (edi s) t) u →
      img.HandlerEntered img.stackEnd (32 + img.sysenterLocals + img.dispatchLocals) s u := by
    intro u hu
    have hrsp' := hu.rsp
    rw [hsp] at hrsp'
    refine ⟨by omega, fun x hout hcellout => ?_⟩
    have hstore : (afterSysenter img s).mem x = s.mem x := Mem.store64_outside _ _ _ _ hcellout
    have hframes : t.mem x = (afterSysenter img s).mem x :=
      he.mem x (x + 1) (by rw [hrsp₀]; omega) x le_rfl (by omega)
    have hcall : (sysenterStack img (edi s) t).mem x = t.mem x :=
      sysenterStack_sameOn (a := x) (b := x + 1) _ (by omega) (by omega) x le_rfl (by omega)
    rw [hu.mem x (by rw [hsp]; omega) hcellout, hcall, hframes, hstore]
  obtain ⟨g, hrun, hinv, hkeep⟩ := @dispatch_returns img img.sysenterFrames
    (sysenterStack img (edi s) t) [] [] (by rw [hsp]; omega) (by rw [hsp]; omega)
    (by rw [hsp]; omega)
    (fun x h h' => .inl ⟨by rw [hsp] at h; omega, by rw [hsp] at h'; omega⟩)
    (by rw [sysenterStack_edi, hd]; exact fun h hh u hu => hconv.sysenter h hh u (hentered u hu))
  rw [sysenterStack_edi, hd] at hinv
  refine ⟨g, run_callFunction hrun hkeep.returned, hinv, ⟨?_, fun r hr hne => ?_, ?_, fun hR => ?_⟩⟩
  · rw [hkeep.returned.rsp, hsp, BitVec.sub_add_cancel]
  · have hdi : r ≠ .rdi := ne_of_calleeSaved hr rfl
    rw [hkeep.returned.saved r hr hne, sysenterStack_reg _ hne hdi]
  · have hcellkept : (sysenterStack img (edi s) t).mem.SameOn g.machine.mem img.sysenterRsp
        (img.sysenterRsp + 8) := hkeep.sameOn fun x h h' => ⟨.inr ⟨h, h'⟩, by rw [hsp]; omega⟩
    have hkept := (hstack img.sysenterRsp (img.sysenterRsp + 8) (by omega)).trans hcellkept
    rw [hkept.load64 le_rfl le_rfl]
    exact Mem.load64_store64_same _ _ _
  · -- the return address lies where `dispatch_handler` has saved the frame pointer
    have hslot : (t.cpu.regs .rsp - 8#64).toNat - 8 = (s.cpu.regs .rsp).toNat := by omega
    have hsaved := hkeep.savedRbp
    rw [hsp, hslot, sysenterStack_reg _ (by decide) (by decide)] at hsaved
    exact hsaved

/-- where the gate leaves its caller -/
structure ComesBack (img : Gates) (s t : Machine) : Prop where
  rsp : (t.cpu.regs .rsp).toNat + img.sysenterLocals + 16 = img.stackEnd
  rbp : (t.cpu.regs .rbp).toNat + 8 = img.stackEnd
  saved : ∀ r, calleeSaved r → r ≠ .rsp → r ≠ .rbp → t.cpu.regs r = s.cpu.regs r
  rip : (s.cpu.regs .rsp).toNat + img.sysenterLocals + 24 = img.stackEnd →
    (t.cpu.regs .rip).toNat + 8 = img.stackEnd

/-- **`__sysenter` comes back on `kernel_stack`**, after the handler of the number -/
theorem sysenter_comes_back (h : GateMsrs img s)
    (hconv : HandlersObey img s) :
    ∃ g, img.sysenter.run (Guest.init s) = .ret () g ∧
      g.invoked = dispatched s.mem (edi s) ∧ ComesBack img s g.machine := by
  obtain ⟨hsize, hend, -, hfits⟩ := img.stack_bounds
  have hrsp₀ : ((afterSysenter img s).cpu.regs .rsp).toNat = img.stackEnd := afterSysenter_rsp
  have hedi : edi (afterSysenter img s) = edi s := by
    rw [edi, edi, afterSysenter_reg (by decide) (by decide)]
  have he : Entered img img.sysenterLocals (afterSysenter img s)
      (img.clobber img.sysenterLocals (prologue img.sysenterLocals (afterSysenter img s))) :=
    entered img (by rw [hrsp₀]; omega)
  rw [run_sysenter h]
  unfold Gates.sysenterHandler
  rw [bind_of_ret (run_onMachine (run_gets _ _)), bind_of_ret (run_step _),
    bind_of_ret (run_step _)]
  simp only [hedi]
  generalize img.clobber img.sysenterLocals (prologue img.sysenterLocals (afterSysenter img s)) = t
    at he ⊢
  obtain ⟨g, hback, hinv, hdisp⟩ := sysenter_dispatched he hconv
  have hrsp := he.rsp
  have hrbp := he.rbp
  rw [hrsp₀] at hrsp hrbp
  have hpush := toNat_sub_of_le (x := t.cpu.regs .rsp) (n := 8) (by omega)
  have hp : (onMachine (loadQword img.sysenterRsp)).run g = .ret (s.cpu.regs .rsp) g := by
    rw [← hdisp.cell]
    exact run_onMachine (run_loadQword _ _)
  rw [bind_of_ret (run_setArgument _ _), bind_of_ret hback, bind_of_ret hp,
    bind_of_ret (run_onMachine (run_loadQword _ _)), bind_of_ret (run_step _)]
  have hgoes : ∀ r, r ≠ .rip → (setRip (g.machine.mem.load64 (s.cpu.regs .rsp).toNat)
      (pushQword img.behindRet g.machine)).cpu.regs r
      = (pushQword img.behindRet g.machine).cpu.regs r := fun r hr => by simp [setRip, hr]
  refine ⟨_, run_step _, hinv, ⟨?_, ?_, fun r hr h1 h2 => ?_, fun hR => ?_⟩⟩
  · rw [hgoes _ (by decide), pushQword_rsp, hdisp.rsp]
    omega
  · rw [hgoes _ (by decide), pushQword_reg _ (by decide), hdisp.saved _ rfl (by decide)]
    exact hrbp
  · have hrip : r ≠ .rip := ne_of_calleeSaved hr rfl
    have hreg := he.saved r hr h1 h2
    rw [hgoes _ hrip, pushQword_reg _ h1, hdisp.saved r hr h1, hreg, afterSysenter_reg h1 hrip]
  · show ((setRip _ _).cpu.regs .rip).toNat + 8 = _
    rw [hdisp.slot hR]
    simpa [setRip] using hrbp

theorem onGateFrame_of_gatesReturn (h : GateMsrs img s)
    (hconv : HandlersObey img s) (hret : GatesReturn img s) : OnGateFrame img s := by
  obtain ⟨hsize, hend, -, hfits⟩ := img.stack_bounds
  obtain ⟨-, g, -, hrun, -, -, -, hr⟩ := hret
  obtain ⟨g', hrun', -, hback⟩ := sysenter_comes_back h hconv
  rw [hrun] at hrun'
  injection hrun' with _ hg
  subst hg
  have hsp := hback.rsp
  rw [hr.rsp, BitVec.toNat_add, BitVec.toNat_ofNat] at hsp
  have hrsp : (s.cpu.regs .rsp).toNat + img.sysenterLocals + 24 = img.stackEnd := by omega
  refine ⟨hrsp, ?_, ?_⟩
  · rw [← hr.saved .rbp rfl (by decide)]
    exact hback.rbp
  · rw [← hr.rip]
    exact hback.rip hrsp

theorem gatesReturn_of_onGateFrame (h : GateMsrs img s)
    (hconv : HandlersObey img s) (hframe : OnGateFrame img s) : GatesReturn img s := by
  obtain ⟨hsize, hend, hlt, hfits⟩ := img.stack_bounds
  have htable := img.stack_table
  have hrsp := hframe.rsp
  obtain ⟨g, hrun, hinv, hr⟩ := syscall_returns h (by omega) (by omega) (by omega) hconv
  obtain ⟨g', hrun', hinv', hback⟩ := sysenter_comes_back h hconv
  refine ⟨g, g', hrun, hrun', hinv, hinv', hr, ⟨?_, ?_, fun r hs hne => ?_⟩⟩
  · have h1 := hback.rip hrsp
    have h2 := hframe.rip
    exact BitVec.eq_of_toNat_eq (by omega)
  · have h1 := hback.rsp
    refine BitVec.eq_of_toNat_eq ?_
    rw [BitVec.toNat_add, BitVec.toNat_ofNat]
    omega
  · by_cases hbp : r = .rbp
    · have h1 := hback.rbp
      have h2 := hframe.rbp
      rw [hbp]
      exact BitVec.eq_of_toNat_eq (by omega)
    · exact hback.saved r hs hne hbp

end

/-! ## both gates -/

/-- **both gates return to the caller exactly if the caller stands on `kernel_stack`**, where the
frames of `__sysenter` go, with its frame pointer and return address there too -/
theorem gates_return_iff (img : Gates) (s₀ s₁ s : Machine)
    (hinit : (initSyscalls img).run s₀ = .ret () s₁) (hcs : s₀.cpu.cs &&& 0xFFFC#16 ≠ 0#16)
    (hmsr : s.cpu.msr = s₁.cpu.msr) (hconv : HandlersObey img s) :
    GatesReturn img s ↔ OnGateFrame img s :=
  have h := gateMsrs_init hinit hcs hmsr
  ⟨onGateFrame_of_gatesReturn h hconv, gatesReturn_of_onGateFrame h hconv⟩

/-! ## a kernel with a handler that uses its stack -/

/-- a C function that uses its stack and the scratch registers, and returns -/
def Gates.stackOnly (img : Gates) (locals : ℕ) (s : Machine) : Machine :=
  epilogue (img.clobber locals (prologue locals s))

theorem stackOnly_returned (img : Gates) {locals : ℕ} {s : Machine}
    (h : 8 + locals + img.callDepth ≤ (s.cpu.regs .rsp).toNat) : Returned s (img.stackOnly locals s) :=
  (entered img h).returns (fun _ _ _ => rfl) (Mem.SameOn.refl _ _ _)

/-- it obeys the calling convention wherever it has room and its callers have nothing there -/
theorem stackOnly_obeys (img : Gates) {locals : ℕ} {theirs : ℕ → Prop} {s : Machine}
    (h : 8 + locals + img.callDepth ≤ (s.cpu.regs .rsp).toNat)
    (hout : ∀ x, theirs x → x + 8 + locals + img.callDepth < (s.cpu.regs .rsp).toNat ∨
      (s.cpu.regs .rsp).toNat ≤ x) : ObeysConvention theirs s (img.stackOnly locals s) := by
  refine ⟨stackOnly_returned img h, fun x hx => ?_⟩
  have hx' := hout x hx
  exact (entered (s := s) img h).mem x (x + 1) (by omega) x le_rfl (by omega)

/-- gates with their data above `HEADER_START`, and frames of 32 bytes that are filled with `0xCC` -/
def sampleCode : Gates where
  kernelStack := 0x10C000
  sysenterRsp := 0x10B000
  sysenterHandlerAt := 0x108000#64
  syscallHandlerAt := 0x109000#64
  behindSyscall := 0x109100#64
  behindDispatch := 0x109009#64
  behindDispatchC := 0x108016#64
  behindRet := 0x108030#64
  behindHandler := 0x10A050#64
  sysenterLocals := 32
  dispatchLocals := 32
  callDepth := 0x400
  compiled := fun s => { s with mem := fun _ => 0xCC#8 }
  handler := fun _ s => s
  handlers_ne := by decide
  stack_lt := by decide
  stack_fits := by decide
  stack_table := Or.inl (by decide)
  cell_stack := Or.inl (by decide)
  cell_table := Or.inl (by decide)

/-- the same with handlers that are compiled like that too -/
def sampleGates : Gates := { sampleCode with
  callDepth := 0x440
  handler := fun _ => sampleCode.stackOnly 16
  stack_fits := by decide }

/-- a processor in its code segment, with nothing in memory -/
def flatMachine : Machine :=
  { freeMachine 0#64 with cpu := { (freeMachine 0#64).cpu with cs := 8#16 } }

/-- `kmain` calls a gate with the number `42`, which has a handler, on a stack at 2 MiB -/
def kmainCall (msr : BitVec 32 → BitVec 64) : Machine :=
  withRegs { flatMachine with
    mem := flatMachine.mem.store64 crabEntry 0x104000#64
    cpu := { flatMachine.cpu with msr := msr } } fun r => match r with
      | .rsp => 0x200000#64
      | .rdi => 42#64
      | _ => 0#64

theorem initSyscalls_run (img : Gates) (s : Machine) : ∃ msr, (initSyscalls img).run s
    = .ret () { s with cpu := { s.cpu with msr := msr } } := by
  unfold initSyscalls
  simp only [readCs, run_bind, run_gets, run_writeMsr, run_readMsr]
  exact ⟨_, rfl⟩

theorem handlersObey_kmainCall (msr : BitVec 32 → BitVec 64) :
    HandlersObey sampleGates (kmainCall msr) := by
  have hrsp : ((kmainCall msr).cpu.regs .rsp).toNat = 0x200000 := rfl
  have hend : sampleGates.stackEnd = 0x10D000 := rfl
  have hlocals : sampleGates.sysenterLocals = 32 ∧ sampleGates.dispatchLocals = 32 := ⟨rfl, rfl⟩
  have hcell : sampleGates.sysenterRsp = 0x10B000 := rfl
  have hdepth : sampleCode.callDepth = 0x400 := rfl
  refine ⟨fun h _ t ht => ?_, fun h _ t ht => ?_⟩
  · have hsp := ht.rsp
    rw [hrsp] at hsp
    refine stackOnly_obeys sampleCode (by omega) fun x hx => ?_
    rw [Gates.syscallFrames, hrsp] at hx
    omega
  · have hsp := ht.rsp
    rw [hend] at hsp
    refine stackOnly_obeys sampleCode (by omega) fun x hx => ?_
    rw [Gates.sysenterFrames, hend, hcell] at hx
    omega

theorem gates_return_iff_kmain : ∃ s₁, (initSyscalls sampleGates).run flatMachine = .ret () s₁ ∧
    dispatched (kmainCall s₁.cpu.msr).mem 42#32 = [0x104000#64] ∧
    (GatesReturn sampleGates (kmainCall s₁.cpu.msr) ↔
      OnGateFrame sampleGates (kmainCall s₁.cpu.msr)) := by
  obtain ⟨msr, hrun⟩ := initSyscalls_run sampleGates flatMachine
  have hentry : tableEntry (kmainCall msr).mem 42#32 = 0x104000#64 :=
    Mem.load64_store64_same flatMachine.mem crabEntry _
  have hnull : ¬ tableEntry (kmainCall msr).mem 42#32 = 0#64 := by
    rw [hentry]
    decide
  refine ⟨_, hrun, ?_, gates_return_iff sampleGates flatMachine _ (kmainCall msr) hrun (by decide) rfl
    (handlersObey_kmainCall msr)⟩
  show dispatched (kmainCall msr).mem 42#32 = _
  rw [dispatched, if_neg (by decide), if_neg hnull, hentry]

/-- **`kmain` does not get its stack back**: it calls `__sysenter(42)` -/
theorem sysenter_keeps_kernel_stack : ¬ ∀ (img : Gates) (s₀ s₁ s : Machine),
    (initSyscalls img).run s₀ = .ret () s₁ → s₀.cpu.cs &&& 0xFFFC#16 ≠ 0#16 →
    s.cpu.msr = s₁.cpu.msr → HandlersObey img s → GatesReturn img s := by
  intro h
  obtain ⟨msr, hrun⟩ := initSyscalls_run sampleGates flatMachine
  have hconv : HandlersObey sampleGates (kmainCall msr) := handlersObey_kmainCall msr
  have hmsrs : GateMsrs sampleGates (kmainCall msr) := gateMsrs_init hrun (by decide) rfl
  have hframe := onGateFrame_of_gatesReturn hmsrs hconv
    (h sampleGates flatMachine _ (kmainCall msr) hrun (by decide) rfl hconv)
  have hrsp := hframe.rsp
  simp [kmainCall, withRegs, sampleGates, sampleCode, Gates.stackEnd, stackSize] at hrsp

end HyperC
