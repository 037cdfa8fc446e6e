import HyperC.Vmm.SavedImage

/-!
# `__vmexit_wrapper`: from the exit to `vmresume`

The wrapper is straight-line assembly around the call of `vmexit_handler`.  Its instructions are
data here, executed one by one.

* `Instr`, `exec`, `wrapperCode`, `vmexitWrapper`   the instructions, their effect, the listing;
* `Compiled`           what the calling convention lets the called C code do to registers and stack;
* `run_saveRegs`, `run_loadRegs`   the blocks that store and load the fifteen general registers;
* `run_save`, `run_call`, `run_restore`   the three parts of the wrapper;
* `wrapper_resumes`, `wrapper_halts`   a handled exit comes back with the registers of `exitRegs`,
                       any other one stops the host.
-/

namespace HyperC
open Code

/-! ## the listing -/

/-- the instructions of the wrapper -/
inductive Instr where
  /-- `mov [fs:off], r` -/
  | saveFs (off : ℕ) (r : Reg)
  /-- `mov r, [fs:off]` -/
  | loadFs (r : Reg) (off : ℕ)
  /-- `mov r, v` -/
  | movImm (r : Reg) (v : ℕ)
  /-- `vmread dst, field` -/
  | vmread (dst field : Reg)
  /-- `vmwrite field, src` -/
  | vmwrite (field src : Reg)
  /-- `call vmexit_handler` -/
  | call
  | vmresume

/-- the registers a called function gives back -/
def calleeSaved : Reg → Bool
  | .rbx | .rbp | .rsp | .r12 | .r13 | .r14 | .r15 => true
  | _ => false

theorem ne_of_calleeSaved {r r' : Reg} (hr : calleeSaved r) (hr' : calleeSaved r' = false) :
    r ≠ r' := by
  rintro rfl
  rw [hr'] at hr
  cases hr

/-- the compiled `vmexit_handler`: the registers it may use, and its stack below `STACK_TOP` -/
structure Compiled where
  scratch : Machine → Regs
  stack : Machine → Mem
  stack_below : ∀ s x, stackTop ≤ x → stack s x = s.mem x

/-- the state in which a call from `s` returns, when the C code ends in `s'` -/
def Compiled.after (c : Compiled) (s s' : Machine) : Machine :=
  { s' with
    mem := c.stack s'
    cpu := { s'.cpu with
      regs := fun r => if calleeSaved r then s.cpu.regs r else c.scratch s' r } }

/-- a machine with another register file -/
def withRegs (s : Machine) (regs : Regs) : Machine := { s with cpu := { s.cpu with regs := regs } }

def setReg (r : Reg) (v : BitVec 64) : Host Unit :=
  modify fun s => withRegs s (Function.update s.cpu.regs r v)

def getReg (r : Reg) : Host (BitVec 64) := gets fun s => s.cpu.regs r

def fsAddr (off : ℕ) : Host ℕ := gets fun s => (s.cpu.fsBase + BitVec.ofNat 64 off).toNat

def exec (img : Image) (c : Compiled) : Instr → Host Unit
  | .saveFs off r => do storeQword (← fsAddr off) (← getReg r)
  | .loadFs r off => do setReg r (← loadQword (← fsAddr off))
  | .movImm r v => setReg r (BitVec.ofNat 64 v)
  | .vmread dst field => do setReg dst (← HyperC.vmread (← getReg field).toNat)
  | .vmwrite field src => do HyperC.vmwrite (← getReg field).toNat (← getReg src)
  | .call => do
    let s ← gets id
    vmexitHandler img
    modify (c.after s)
  | .vmresume => leave vmEntry

def wrapperCode : List Instr :=
  [.saveFs 0x00 .rax, .saveFs 0x08 .rbx, .saveFs 0x10 .rcx, .saveFs 0x18 .rdx, .saveFs 0x20 .rsi,
    .saveFs 0x28 .rdi, .saveFs 0x30 .rbp, .saveFs 0x38 .r8, .saveFs 0x40 .r9, .saveFs 0x48 .r10,
    .saveFs 0x50 .r11, .saveFs 0x58 .r12, .saveFs 0x60 .r13, .saveFs 0x68 .r14, .saveFs 0x70 .r15,
    .movImm .rax 0x681c, .vmread .rbx .rax, .saveFs 0x78 .rbx,
    .movImm .rax 0x681e, .vmread .rbx .rax, .saveFs 0x80 .rbx,
    .call,
    .loadFs .rbx 0x78, .movImm .rax 0x681c, .vmwrite .rax .rbx,
    .loadFs .rbx 0x80, .movImm .rax 0x681e, .vmwrite .rax .rbx,
    .loadFs .rax 0x00, .loadFs .rbx 0x08, .loadFs .rcx 0x10, .loadFs .rdx 0x18, .loadFs .rsi 0x20,
    .loadFs .rdi 0x28, .loadFs .rbp 0x30, .loadFs .r8 0x38, .loadFs .r9 0x40, .loadFs .r10 0x48,
    .loadFs .r11 0x50, .loadFs .r12 0x58, .loadFs .r13 0x60, .loadFs .r14 0x68, .loadFs .r15 0x70,
    .vmresume]

def vmexitWrapper (img : Image) (c : Compiled) : Host Unit := each (exec img c) wrapperCode

/-! ## the parts -/

/-- the registers the wrapper moves by itself; `rsp` and `rip` come from the VMCS -/
def generalRegs : List Reg :=
  [.rax, .rbx, .rcx, .rdx, .rsi, .rdi, .rbp, .r8, .r9, .r10, .r11, .r12, .r13, .r14, .r15]

def saveRegs (rs : List Reg) : List Instr := rs.map fun r => .saveFs (8 * r.position) r
def loadRegs (rs : List Reg) : List Instr := rs.map fun r => .loadFs r (8 * r.position)

/-- a field of the VMCS to its slot, and back -/
def saveField (field : ℕ) (r : Reg) : List Instr :=
  [.movImm .rax field, .vmread .rbx .rax, .saveFs (8 * r.position) .rbx]
def loadField (field : ℕ) (r : Reg) : List Instr :=
  [.loadFs .rbx (8 * r.position), .movImm .rax field, .vmwrite .rax .rbx]

def saveCode : List Instr :=
  saveRegs generalRegs ++ (saveField vmcsGuestRsp .rsp ++ saveField vmcsGuestRip .rip)
def restoreCode : List Instr :=
  loadField vmcsGuestRsp .rsp ++ (loadField vmcsGuestRip .rip ++ (loadRegs generalRegs ++ [.vmresume]))

/-- **the offsets of the listing are those of `registers_t`**, the same on both sides of the call -/
theorem wrapperCode_eq : wrapperCode = saveCode ++ .call :: restoreCode := rfl

/-! ## blocks of stores and loads -/

/-- the image with some registers of `regs` stored in their slots -/
def stored (gs : ℕ) (regs : Regs) (rs : List Reg) (m : Mem) : Mem :=
  rs.foldl (fun m r => m.store64 (regSlot gs r) (regs r)) m

theorem load_stored (gs : ℕ) (regs : Regs) (rs : List Reg) (m : Mem) (r : Reg) :
    (stored gs regs rs m).load64 (regSlot gs r)
      = if r ∈ rs then regs r else m.load64 (regSlot gs r) := by
  induction rs generalizing m with
  | nil => rfl
  | cons r' rs ih =>
    rw [stored, List.foldl_cons]
    refine (ih _).trans ?_
    rw [load_store_slot]
    by_cases h : r = r'
    · subst h
      simp
    · simp [h]

theorem stored_outside (gs : ℕ) (regs : Regs) (rs : List Reg) (m : Mem) (x : ℕ)
    (h : x < gs ∨ gs + 136 ≤ x) : stored gs regs rs m x = m x := by
  induction rs generalizing m with
  | nil => rfl
  | cons r' rs ih => exact (ih _).trans (store_slot_outside r' _ x h)

/-- a register file with some registers loaded from their slots -/
def loaded (gs : ℕ) (m : Mem) (rs : List Reg) (regs : Regs) : Regs :=
  rs.foldl (fun f r => Function.update f r (m.load64 (regSlot gs r))) regs

theorem loaded_apply (gs : ℕ) (m : Mem) (rs : List Reg) (regs : Regs) (r : Reg) :
    loaded gs m rs regs r = if r ∈ rs then m.load64 (regSlot gs r) else regs r := by
  induction rs generalizing regs with
  | nil => rfl
  | cons r' rs ih =>
    rw [loaded, List.foldl_cons]
    refine (ih _).trans ?_
    by_cases h : r = r'
    · subst h
      simp
    · simp [h, Function.update_of_ne]

section
variable (img : Image) (c : Compiled) {gs : ℕ} {s : Machine}

theorem run_fsAddr (hfs : s.cpu.fsBase = BitVec.ofNat 64 gs) (hgs : gs + 136 ≤ 2 ^ 64) (r : Reg) :
    (fsAddr (8 * r.position)).run s = .ret (regSlot gs r) s := by
  have hr := r.position_lt
  have ha : (s.cpu.fsBase + BitVec.ofNat 64 (8 * r.position)).toNat = regSlot gs r := by
    rw [hfs, BitVec.toNat_add, BitVec.toNat_ofNat, BitVec.toNat_ofNat, regSlot_eq]
    omega
  rw [fsAddr, run_gets, ha]

theorem run_saveFs (hfs : s.cpu.fsBase = BitVec.ofNat 64 gs) (hgs : gs + 136 ≤ 2 ^ 64) (r r' : Reg) :
    (exec img c (.saveFs (8 * r.position) r')).run s
      = .ret () { s with mem := s.mem.store64 (regSlot gs r) (s.cpu.regs r') } := by
  unfold exec
  rw [bind_of_ret (run_fsAddr hfs hgs r)]
  rfl

theorem run_loadFs (hfs : s.cpu.fsBase = BitVec.ofNat 64 gs) (hgs : gs + 136 ≤ 2 ^ 64) (r r' : Reg) :
    (exec img c (.loadFs r' (8 * r.position))).run s
      = .ret () (withRegs s (Function.update s.cpu.regs r' (s.mem.load64 (regSlot gs r)))) := by
  unfold exec
  rw [bind_of_ret (run_fsAddr hfs hgs r)]
  rfl

theorem run_saveRegs (hfs : s.cpu.fsBase = BitVec.ofNat 64 gs) (hgs : gs + 136 ≤ 2 ^ 64)
    (rs : List Reg) : (each (exec img c) (saveRegs rs)).run s
      = .ret () { s with mem := stored gs s.cpu.regs rs s.mem } := by
  induction rs generalizing s with
  | nil => rfl
  | cons r rs ih =>
    rw [saveRegs, List.map_cons, each_cons, bind_of_ret (run_saveFs img c hfs hgs r r)]
    exact ih hfs

theorem run_loadRegs (hfs : s.cpu.fsBase = BitVec.ofNat 64 gs) (hgs : gs + 136 ≤ 2 ^ 64)
    (rs : List Reg) : (each (exec img c) (loadRegs rs)).run s
      = .ret () (withRegs s (loaded gs s.mem rs s.cpu.regs)) := by
  induction rs generalizing s with
  | nil => rfl
  | cons r rs ih =>
    rw [loadRegs, List.map_cons, each_cons, bind_of_ret (run_loadFs img c hfs hgs r r)]
    exact ih hfs

theorem run_saveField (hfs : s.cpu.fsBase = BitVec.ofNat 64 gs) (hgs : gs + 136 ≤ 2 ^ 64) (field : ℕ)
    (hf : field < 2 ^ 64) (r : Reg) : ∃ regs, (each (exec img c) (saveField field r)).run s
      = .ret () { withRegs s regs with mem := s.mem.store64 (regSlot gs r) (s.vmcs field) } := by
  have hn : (BitVec.ofNat 64 field).toNat = field := Nat.mod_eq_of_lt hf
  have hread : (exec img c (.vmread .rbx .rax)).run
      (withRegs s (Function.update s.cpu.regs .rax (BitVec.ofNat 64 field)))
      = .ret () (withRegs s (Function.update
        (Function.update s.cpu.regs .rax (BitVec.ofNat 64 field)) .rbx (s.vmcs field))) := by
    show Outcome.ret () (withRegs _ _) = _
    simp only [withRegs, Function.update_self, hn]
  refine ⟨Function.update (Function.update s.cpu.regs .rax (BitVec.ofNat 64 field)) .rbx
    (s.vmcs field), ?_⟩
  rw [saveField, each_cons, bind_of_ret (x := exec img c (.movImm .rax field)) rfl, each_cons,
    bind_of_ret hread, each_cons, bind_of_ret (run_saveFs img c (by exact hfs) hgs r .rbx)]
  show Outcome.ret () _ = _
  simp only [withRegs, Function.update_self]

theorem run_loadField (hfs : s.cpu.fsBase = BitVec.ofNat 64 gs) (hgs : gs + 136 ≤ 2 ^ 64) (field : ℕ)
    (hf : field < 2 ^ 64) (r : Reg) : ∃ regs, (each (exec img c) (loadField field r)).run s
      = .ret () { withRegs s regs with
          vmcs := Function.update s.vmcs field (s.mem.load64 (regSlot gs r)) } := by
  have hn : (BitVec.ofNat 64 field).toNat = field := Nat.mod_eq_of_lt hf
  refine ⟨Function.update (Function.update s.cpu.regs .rbx (s.mem.load64 (regSlot gs r))) .rax
    (BitVec.ofNat 64 field), ?_⟩
  rw [loadField, each_cons, bind_of_ret (run_loadFs img c hfs hgs r .rbx), each_cons,
    bind_of_ret (x := exec img c (.movImm .rax field)) rfl, each_cons]
  show Outcome.ret () _ = _
  simp only [withRegs, Function.update_self, hn,
    Function.update_of_ne (show Reg.rbx ≠ Reg.rax by decide)]

end

/-! ## the three parts -/

def allRegs : List Reg := generalRegs ++ [.rsp, .rip]

theorem mem_allRegs (r : Reg) : r ∈ allRegs := by
  cases r <;> decide

/-- the registers of the guest at an exit: the general ones are still in place -/
def guestRegs (s : Machine) : Regs := fun r =>
  if r = .rsp then s.vmcs vmcsGuestRsp else if r = .rip then s.vmcs vmcsGuestRip else s.cpu.regs r

/-- the memory the wrapper hands to `vmexit_handler` -/
def savedMem (gs : ℕ) (s : Machine) : Mem := stored gs (guestRegs s) allRegs s.mem

theorem load_savedMem (gs : ℕ) (s : Machine) (r : Reg) :
    (savedMem gs s).load64 (regSlot gs r) = guestRegs s r := by
  rw [savedMem, load_stored, if_pos (mem_allRegs r)]

theorem savedMem_outside (gs : ℕ) (s : Machine) (x : ℕ) (h : x < gs ∨ gs + 136 ≤ x) :
    savedMem gs s x = s.mem x :=
  stored_outside _ _ _ _ x h

section
variable (img : Image) (c : Compiled) {gs : ℕ} {s : Machine}

/-- **before the call every register of the guest is in its slot** -/
theorem run_save (hfs : s.cpu.fsBase = BitVec.ofNat 64 gs) (hgs : gs + 136 ≤ 2 ^ 64) :
    ∃ regs, (each (exec img c) saveCode).run s
      = .ret () { withRegs s regs with mem := savedMem gs s } := by
  rw [saveCode, each_append, bind_of_ret (run_saveRegs img c hfs hgs generalRegs), each_append]
  obtain ⟨regs₁, h₁⟩ := run_saveField img c
    (s := { s with mem := stored gs s.cpu.regs generalRegs s.mem }) hfs hgs
    vmcsGuestRsp (by decide) .rsp
  rw [bind_of_ret h₁]
  obtain ⟨regs₂, h₂⟩ := run_saveField img c (s := { withRegs s regs₁ with
    mem := (stored gs s.cpu.regs generalRegs s.mem).store64 (regSlot gs .rsp) (s.vmcs vmcsGuestRsp) })
    hfs hgs vmcsGuestRip (by decide) .rip
  exact ⟨regs₂, h₂⟩

/-- the machine the guest continues on, when the image is in `s` -/
def resumed (gs : ℕ) (s : Machine) (regs : Regs) : Machine :=
  vmEntry { withRegs s (loaded gs s.mem generalRegs regs) with
    vmcs := Function.update (Function.update s.vmcs vmcsGuestRsp (s.mem.load64 (regSlot gs .rsp)))
      vmcsGuestRip (s.mem.load64 (regSlot gs .rip)) }

/-- **after the call every register of the guest is loaded from its slot** -/
theorem resumed_regs (gs : ℕ) (s : Machine) (regs : Regs) (r : Reg) :
    (resumed gs s regs).cpu.regs r = s.mem.load64 (regSlot gs r) := by
  have hne : vmcsGuestRsp ≠ vmcsGuestRip := by decide
  by_cases hrip : r = .rip
  · subst hrip
    simp only [resumed, vmEntry, Function.update_self]
  by_cases hrsp : r = .rsp
  · subst hrsp
    simp only [resumed, vmEntry, Function.update_of_ne hrip, Function.update_self,
      Function.update_of_ne hne]
  have hr : r ∈ generalRegs := by
    cases r <;> first | decide | exact absurd rfl hrip | exact absurd rfl hrsp
  simp only [resumed, vmEntry, withRegs, Function.update_of_ne hrip, Function.update_of_ne hrsp]
  rw [loaded_apply, if_pos hr]

theorem run_restore (hfs : s.cpu.fsBase = BitVec.ofNat 64 gs) (hgs : gs + 136 ≤ 2 ^ 64) :
    ∃ regs, (each (exec img c) restoreCode).run s = .leave (resumed gs s regs) := by
  rw [restoreCode, each_append]
  obtain ⟨regs₁, h₁⟩ := run_loadField img c (s := s) hfs hgs
    vmcsGuestRsp (by decide) .rsp
  rw [bind_of_ret h₁, each_append]
  obtain ⟨regs₂, h₂⟩ := run_loadField img c (s := { withRegs s regs₁ with
    vmcs := Function.update s.vmcs vmcsGuestRsp (s.mem.load64 (regSlot gs .rsp)) }) hfs hgs
    vmcsGuestRip (by decide) .rip
  rw [bind_of_ret h₂, each_append, bind_of_ret (run_loadRegs img c (by exact hfs) hgs generalRegs)]
  exact ⟨regs₂, rfl⟩

end

/-! ## the whole wrapper -/

section
variable (img : Image) (c : Compiled) {p : ℕ} {s : Machine}

theorem run_call {s' : Machine} (h : (vmexitHandler img).run s = .ret () s') :
    (exec img c .call).run s = .ret () (c.after s s') := by
  unfold exec
  rw [bind_of_ret (run_gets _ _), bind_of_ret h]
  rfl

theorem run_call_halt {t : Machine} (h : (vmexitHandler img).run s = .halt t) :
    (exec img c .call).run s = .halt t := by
  unfold exec
  rw [bind_of_ret (run_gets _ _), bind_of_halt h]

/-- what the wrapper leaves when it starts in `s` and the handler makes `m` of memory -/
structure Resumes (p : ℕ) (s : Machine) (m : Mem) (s' : Machine) : Prop where
  regs : ∀ r, s'.cpu.regs r = m.load64 (regSlot (CpuData.guestCpuState p) r)
  mem : ∀ x, stackTop ≤ x → s'.mem x = m x
  vmcs : ∀ field, field ≠ vmcsGuestRsp → field ≠ vmcsGuestRip → s'.vmcs field = s.vmcs field
  msr : s'.cpu.msr = entryMsr s.vmcs s.cpu.msr

private theorem run_wrapper_call (hp : CpuDataAt p)
    (hfs : s.cpu.fsBase = BitVec.ofNat 64 (CpuData.guestCpuState p)) :
    ∃ regs, (vmexitWrapper img c).run s = (exec img c .call >>= fun _ =>
      each (exec img c) restoreCode).run
        { withRegs s regs with mem := savedMem (CpuData.guestCpuState p) s } := by
  have hlt := hp.lt
  have hgs := CpuData.guestCpuState_eq p
  obtain ⟨regs, hsave⟩ := run_save img c hfs (by omega)
  rw [vmexitWrapper, wrapperCode_eq, each_append, bind_of_ret hsave, each_cons]
  exact ⟨regs, rfl⟩

theorem resumes_resumed (hp : CpuDataAt p) {m : Mem} {u : Machine}
    (hmem : ∀ x, stackTop ≤ x → u.mem x = m x) (hvmcs : u.vmcs = s.vmcs)
    (hmsr : u.cpu.msr = s.cpu.msr) (regs : Regs) :
    Resumes p s m (resumed (CpuData.guestCpuState p) u regs) := by
  have htop := hp.above
  refine ⟨fun r => ?_, hmem, fun field h1 h2 => ?_, ?_⟩
  · rw [resumed_regs]
    refine Mem.load64_congr fun k _ => hmem _ ?_
    rw [regSlot_eq, CpuData.guestCpuState_eq]
    omega
  · simp only [resumed, vmEntry, Function.update_of_ne h1, Function.update_of_ne h2, hvmcs]
  · have hkept : ∀ f, f ≠ vmcsGuestRsp → f ≠ vmcsGuestRip →
        (resumed (CpuData.guestCpuState p) u regs).vmcs f = s.vmcs f := by
      intro f h1 h2
      simp only [resumed, vmEntry, Function.update_of_ne h1, Function.update_of_ne h2, hvmcs]
    have hentry : (resumed (CpuData.guestCpuState p) u regs).cpu.msr
        = entryMsr (resumed (CpuData.guestCpuState p) u regs).vmcs u.cpu.msr := rfl
    rw [hentry, hmsr]
    exact entryMsr_congr (fun f hf => hkept f (ne_of_mem_of_not_mem hf (by decide))
      (ne_of_mem_of_not_mem hf (by decide))) _

theorem hostFsBase_toNat (hp : CpuDataAt p)
    (hbase : s.vmcs vmcsHostFsBase = BitVec.ofNat 64 (CpuData.guestCpuState p)) :
    (s.vmcs vmcsHostFsBase).toNat = CpuData.guestCpuState p := by
  have hlt := hp.lt
  have hgs := CpuData.guestCpuState_eq p
  rw [hbase, BitVec.toNat_ofNat, Nat.mod_eq_of_lt (by omega)]

/-- **a handled exit comes back** with the registers the handler left in the image -/
theorem wrapper_resumes (hp : CpuDataAt p)
    (hfs : s.cpu.fsBase = BitVec.ofNat 64 (CpuData.guestCpuState p))
    (hbase : s.vmcs vmcsHostFsBase = BitVec.ofNat 64 (CpuData.guestCpuState p)) {m : Mem}
    (h : handled img (CpuData.guestCpuState p) (exitInfo s.vmcs)
      (savedMem (CpuData.guestCpuState p) s) = some m) :
    ∃ s', (vmexitWrapper img c).run s = .leave s' ∧ Resumes p s m s' := by
  have hlt := hp.lt
  have hgs := CpuData.guestCpuState_eq p
  obtain ⟨regs, hrun⟩ := run_wrapper_call img c hp hfs
  rw [← hostFsBase_toNat hp hbase] at h
  obtain ⟨log, hret⟩ := vmexitHandler_ret img
    (s := { withRegs s regs with mem := savedMem (CpuData.guestCpuState p) s })
    (by rw [← hostFsBase_toNat hp hbase]; exact h)
  obtain ⟨regs', hrest⟩ := run_restore img c
    (s := c.after { withRegs s regs with mem := savedMem (CpuData.guestCpuState p) s }
      { withRegs s regs with mem := m, log := log }) hfs (by omega)
  rw [bind_of_ret (run_call img c hret), hrest] at hrun
  refine ⟨_, hrun, ?_⟩
  refine resumes_resumed hp (fun x hx => ?_) ?_ ?_ regs'
  · exact c.stack_below _ x hx
  · rfl
  · rfl

/-- **every other exit stops the host** -/
theorem wrapper_halts (hp : CpuDataAt p)
    (hfs : s.cpu.fsBase = BitVec.ofNat 64 (CpuData.guestCpuState p))
    (hbase : s.vmcs vmcsHostFsBase = BitVec.ofNat 64 (CpuData.guestCpuState p))
    (h : handled img (CpuData.guestCpuState p) (exitInfo s.vmcs)
      (savedMem (CpuData.guestCpuState p) s) = none) :
    ∃ t, (vmexitWrapper img c).run s = .halt t := by
  obtain ⟨regs, hrun⟩ := run_wrapper_call img c hp hfs
  obtain ⟨t, ht⟩ := vmexitHandler_halt img
    (s := { withRegs s regs with mem := savedMem (CpuData.guestCpuState p) s })
    (by rw [← hostFsBase_toNat hp hbase] at h ⊢; exact h)
  rw [bind_of_halt (run_call_halt img c ht)] at hrun
  exact ⟨t, hrun⟩

theorem wrapper_leave_inv (hp : CpuDataAt p)
    (hfs : s.cpu.fsBase = BitVec.ofNat 64 (CpuData.guestCpuState p))
    (hbase : s.vmcs vmcsHostFsBase = BitVec.ofNat 64 (CpuData.guestCpuState p)) {s' : Machine}
    (h : (vmexitWrapper img c).run s = .leave s') :
    ∃ m, handled img (CpuData.guestCpuState p) (exitInfo s.vmcs)
      (savedMem (CpuData.guestCpuState p) s) = some m ∧ Resumes p s m s' := by
  cases hm : handled img (CpuData.guestCpuState p) (exitInfo s.vmcs)
      (savedMem (CpuData.guestCpuState p) s) with
  | none =>
    obtain ⟨t, ht⟩ := wrapper_halts img c hp hfs hbase hm
    cases h.symm.trans ht
  | some m =>
    obtain ⟨s'', h'', hres⟩ := wrapper_resumes img c hp hfs hbase hm
    cases h.symm.trans h''
    exact ⟨m, rfl, hres⟩

end

end HyperC
